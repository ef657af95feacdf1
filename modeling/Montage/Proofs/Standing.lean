import Montage.Proofs.Paths
import Montage.Proofs.Stored

/-!
# Files that stand already

In a tree in which everything stands in a directory (`Tree.Rooted`) a file that can be read
can be opened (`Tree.Rooted.exists_stands_of_read`).  The directory of such a file need not be
made (`outcome_makeRoomFor`), and what the file holds has no part in where paths lead
(`Tree.SameShape`).

So a file that is written over leaves every other path where it was, and making a file once
more changes nothing (`Tree.touch_of_touch`).
-/

namespace Montage

namespace Tree

/-! ## Trees that hang together -/

/-- Whatever there is stands in a directory, and relative paths start in one. -/
structure Rooted (tree : Tree) : Prop where
  start : tree.entry? tree.start = some .directory
  above : ∀ place, (tree.entry? place).isSome = true →
    tree.entry? place.dropLast = some .directory

/-- A tree is rooted when it starts in a directory and every entry lies in one. -/
theorem rooted_of_entries {tree : Tree} (hstart : tree.entry? tree.start = some .directory)
    (h : ∀ item ∈ tree.entries, tree.entry? item.1.dropLast = some .directory) :
    tree.Rooted where
  start := hstart
  above place hsome := by
    by_cases hroot : place = []
    · rw [hroot]
      rfl
    · rw [Tree.entry?, if_neg hroot] at hsome
      obtain ⟨entry, hentry⟩ := Option.isSome_iff_exists.mp hsome
      obtain ⟨front, back, hentries, -⟩ := List.lookup_eq_some_iff.mp hentry
      exact h (place, entry) (by simp [hentries])

/-- A tree still hangs together when something has been put into a directory of it where no
directory stands. -/
theorem Rooted.put {tree : Tree} {directory : List String} {name : String}
    (h : tree.Rooted) (entry : Entry) (hdirectory : tree.entry? directory = some .directory)
    (hfree : tree.entry? (directory ++ [name]) ≠ some .directory) :
    (tree.put (directory ++ [name]) entry).Rooted where
  start := entry?_put_of_directory entry hfree h.start
  above place hsome := by
    refine entry?_put_of_directory entry hfree ?_
    by_cases heq : place = directory ++ [name]
    · rw [heq, List.dropLast_concat]
      exact hdirectory
    · rw [entry?_put_of_ne tree heq] at hsome
      exact h.above place hsome

/-- Writing a file where a path opens keeps a tree rooted. -/
theorem Opens.rooted_put {tree : Tree} {path : String} {place : List String}
    (opens : tree.Opens path place) (h : tree.Rooted) (content : ByteArray) :
    (tree.put place (.file content)).Rooted := by
  have hfree := opens.free
  rw [opens.place_eq] at hfree ⊢
  exact h.put _ opens.entry?_directory hfree

/-- A path that is not empty is followed from the top or from where the tree starts. -/
theorem origin_cases {tree : Tree} {path : String} {here : List String}
    (h : tree.origin path = .ok here) :
    path ≠ "" ∧ here = if Path.isAbsolute path then [] else tree.start := by
  rw [origin] at h
  split at h
  · cases h
  · split at h
    · cases h
    · rename_i hempty
      split at h
      · cases h
      · cases h
        exact ⟨by simpa using hempty, rfl⟩

/-- In a rooted tree a path is followed from a directory. -/
theorem Rooted.entry?_origin {tree : Tree} (h : tree.Rooted) {path : String} {here : List String}
    (horigin : tree.origin path = .ok here) : tree.entry? here = some .directory := by
  rw [(origin_cases horigin).2]
  split
  · rfl
  · exact h.start

/-- A path opens a file that is there. -/
structure Stands (tree : Tree) (path : String) (place : List String) (content : ByteArray) :
    Prop where
  opens : Nonempty (tree.Opens path place)
  entry : tree.entry? place = some (.file content)

/-- A file that can be read can be opened where it is. -/
theorem Rooted.exists_stands_of_read {tree : Tree} (h : tree.Rooted) {path : String}
    {content : ByteArray} (hread : tree.read path = .ok content) :
    ∃ place, tree.Stands path place content := by
  obtain ⟨place, hfind, hfile⟩ := read_eq_ok_iff.mp hread
  have hfree : tree.entry? place ≠ some .directory := by
    simp [hfile]
  refine ⟨place, ?_, hfile⟩
  obtain ⟨here, horigin, hwalk⟩ := exists_of_bind_eq_ok hfind
  have hhere := h.entry?_origin horigin
  cases hslash : Path.endsInSlash path with
  | true =>
      rw [hslash, if_pos rfl] at hwalk
      exact absurd (walk_dot_eq_ok_iff.mp hwalk).2 hfree
  | false =>
      simp only [hslash, Bool.false_eq_true, ↓reduceIte, List.append_nil] at hwalk
      rcases List.eq_nil_or_concat' (Path.parts path) with hparts | ⟨names, name, hparts⟩
      · rw [hparts] at hwalk
        cases hwalk
        exact absurd hhere hfree
      · rw [hparts] at hwalk
        obtain ⟨directory, hdirectory, hlast⟩ := exists_of_walk_append hwalk
        obtain ⟨hentry, next, hleads, hend⟩ := exists_of_walk_cons hlast
        cases hend
        cases hleads with
        | stay => exact absurd hentry hfree
        | up =>
            have habove := h.above directory (by rw [hentry]; rfl)
            exact absurd habove hfree
        | down dot dots short present =>
            exact ⟨⟨here, directory, names, name, horigin, hparts,
              walk_dot_eq_ok_iff.mpr ⟨hdirectory, hentry⟩, dot, dots, hslash, short, rfl, hfree⟩⟩

/-! ## Steps -/

/-- An attempt that fails leaves the tree as it was. -/
theorem attempt_of_error {step : Tree → Except FileFault Tree} {tree : Tree} {fault : FileFault}
    (h : step tree = .error fault) : attempt step tree = (.error fault, tree) := by
  rw [attempt, h]

/-! ## Directories that are there -/

/-- Names `.` lead nowhere else. -/
theorem walk_of_walk_dots {tree : Tree} {here place : List String} {names : List String} :
    ∀ {count : ℕ}, tree.walk here (names ++ List.replicate count ".") = .ok place →
      tree.walk here names = .ok place := by
  intro count
  induction count with
  | zero =>
      intro h
      rwa [List.replicate_zero, List.append_nil] at h
  | succ count ih =>
      intro h
      rw [List.replicate_succ', ← List.append_assoc] at h
      exact ih (walk_dot_eq_ok_iff.mp h).1

section

variable {tree : Tree} {path : String} {here directory : List String}
  (horigin : tree.origin path = .ok here) (hwalk : tree.walk here (Path.parts path) = .ok directory)
  (hdirectory : tree.entry? directory = some .directory)

include horigin hwalk hdirectory

/-- A directory that is there is not made. -/
theorem makeDirectory_of_walk : tree.makeDirectory path = .error .alreadyExists := by
  rcases List.eq_nil_or_concat' (Path.parts path) with hparts | ⟨names, name, hparts⟩
  · have hname : tree.findName path = .ok (here, none) := by
      rw [findName, horigin, hparts]
      rfl
    rw [makeDirectory, hname]
    rfl
  · rw [hparts] at hwalk
    obtain ⟨outer, houter, hlast⟩ := exists_of_walk_append hwalk
    obtain ⟨hentry, next, hleads, hend⟩ := exists_of_walk_cons hlast
    cases hend
    have hway : tree.walk here (names ++ ["."]) = .ok outer :=
      walk_dot_eq_ok_iff.mpr ⟨houter, hentry⟩
    have hname : tree.findName path
        = .ok (outer, if name = "." ∨ name = ".." then none else some name) := by
      rw [findName, horigin]
      simp only [bind, Except.bind, hparts, List.getLast?_concat, List.dropLast_concat, hway]
      split <;> rfl
    rw [makeDirectory, hname]
    cases hleads with
    | stay => rfl
    | up => rfl
    | down dot dots short present =>
        simp only [bind, Except.bind, dot, dots, or_self, ↓reduceIte, short, hdirectory,
          Option.isSome_some]
        rfl

/-- A path whose names lead to a directory is one. -/
theorem isDirectory_of_walk : tree.isDirectory path = true := by
  have hfind : tree.find path = .ok directory := by
    rw [find, horigin]
    change tree.walk here _ = _
    split
    · exact walk_dot_eq_ok_iff.mpr ⟨hwalk, hdirectory⟩
    · rwa [List.append_nil]
  rw [isDirectory, hfind]
  simp only [hdirectory]

/-- Making a directory that is there changes nothing. -/
theorem outcome_makeDirectories_of_walk :
    outcome (FileSystem.makeDirectories path) tree = (.ok (), tree) := by
  have hattempt : attempt (·.makeDirectory path) tree = (.error .alreadyExists, tree) :=
    attempt_of_error (makeDirectory_of_walk horigin hwalk hdirectory)
  have hmake : outcome (FileSystem.makeDirectory path
      : ExceptT FileFault (StateM Tree) (Except FileFault Unit)) tree
      = (.ok (.error .alreadyExists), tree) := by
    change (Except.ok (attempt (·.makeDirectory path) tree).1,
      (attempt (·.makeDirectory path) tree).2) = _
    rw [hattempt]
  have hthere : outcome (FileSystem.isDirectory path : ExceptT FileFault (StateM Tree) Bool) tree
      = (.ok true, tree) :=
    congrArg (fun there => (Except.ok there, tree)) (isDirectory_of_walk horigin hwalk hdirectory)
  have hnonempty := (origin_cases horigin).1
  obtain ⟨fuel, hfuel⟩ : ∃ fuel, path.length = fuel + 1 :=
    Nat.exists_eq_succ_of_ne_zero (by simpa using hnonempty)
  rw [FileSystem.makeDirectories, Path.ancestors, hfuel, Path.ancestorsWithin,
    if_neg (by simpa using hnonempty)]
  simp only [FileSystem.makeInnermost, outcome_bind, hmake]
  rw [FileSystem.settle, outcome_bind, hthere]
  rfl

end

/-- What can start a path can start a longer one's front. -/
theorem origin_of_prefix {tree : Tree} {front path : String} {here : List String}
    (hfronts : front.toList <+: path.toList) (hfront : front ≠ "")
    (h : tree.origin path = .ok here) : tree.origin front = .ok here := by
  obtain ⟨back, hback⟩ := hfronts
  obtain rfl : path = front ++ String.ofList back := by
    rw [← String.toList_inj, String.toList_append, String.toList_ofList, hback]
  obtain ⟨c, rest, hchars⟩ := List.exists_cons_of_ne_nil (by simpa using hfront : front.toList ≠ [])
  have habsolute : Path.isAbsolute (front ++ String.ofList back) = Path.isAbsolute front := by
    simp [Path.isAbsolute, hchars]
  rw [origin] at h ⊢
  split at h
  · cases h
  · rename_i hclean
    split at h
    · cases h
    · split at h
      · cases h
      · rename_i hshort
        rw [if_neg, if_neg (by simpa using hfront), if_neg]
        · rwa [habsolute] at h
        · rw [String.utf8ByteSize_append] at hshort
          omega
        · simp only [String.toList_append, List.contains_append, Bool.or_eq_true, not_or] at hclean
          exact hclean.1

/-! ## What files hold -/

/-- Things of one kind: two files, two directories, or nothing in both places. -/
inductive SameKind : Option Entry → Option Entry → Prop
  | nothing : SameKind none none
  | file (content new : ByteArray) : SameKind (some (.file content)) (some (.file new))
  | directory : SameKind (some .directory) (some .directory)

/-- An entry has its own kind. -/
theorem SameKind.refl (entry : Option Entry) : SameKind entry entry := by
  rcases entry with _ | ⟨content | _⟩
  · exact .nothing
  · exact .file content content
  · exact .directory

/-- The same files and directories, whatever the files hold. -/
structure SameShape (tree other : Tree) : Prop where
  start : other.start = tree.start
  kind : ∀ place, SameKind (tree.entry? place) (other.entry? place)

namespace SameShape

variable {tree other : Tree} (h : tree.SameShape other)

/-- Another content for a file that is there. -/
theorem put {tree : Tree} {place : List String} {content : ByteArray} (hplace : place ≠ [])
    (hfile : tree.entry? place = some (.file content)) (new : ByteArray) :
    tree.SameShape (tree.put place (.file new)) := by
  refine ⟨rfl, fun here => ?_⟩
  by_cases heq : here = place
  · rw [heq, entry?_put_self tree hplace, hfile]
    exact .file content new
  · rw [entry?_put_of_ne tree heq]
    exact .refl _

include h

/-- Trees of one shape have entries at the same places. -/
theorem isSome_eq (place : List String) :
    (other.entry? place).isSome = (tree.entry? place).isSome := by
  have hkind := h.kind place
  generalize tree.entry? place = entry, other.entry? place = entry' at hkind ⊢
  cases hkind <;> rfl

/-- In trees of one shape the same names lead to the same place. -/
theorem walk_eq (names : List String) : ∀ here : List String,
    other.walk here names = tree.walk here names := by
  induction names with
  | nil => exact fun _ => rfl
  | cons name names ih =>
      intro here
      have hkind := h.kind here
      rw [walk, walk]
      simp only [ih, h.isSome_eq]
      generalize tree.entry? here = entry, other.entry? here = entry' at hkind ⊢
      cases hkind <;> rfl

/-- In trees of one shape a path finds the same name. -/
theorem findName_eq (path : String) : other.findName path = tree.findName path := by
  rw [findName, findName, origin, origin, h.start]
  simp only [h.walk_eq]

/-- Opening a file finds the same place, and something in it or nothing. -/
theorem openFile_eq (path : String) :
    (other.openFile path).map (fun found => (found.1, found.2.isSome))
      = (tree.openFile path).map (fun found => (found.1, found.2.isSome)) := by
  rw [openFile, openFile, h.findName_eq]
  rcases tree.findName path with fault | ⟨directory, _ | name⟩
  · rfl
  · rfl
  · simp only [bind, Except.bind]
    split
    · rfl
    · split
      · rfl
      · have hkind := h.kind (directory ++ [name])
        generalize tree.entry? (directory ++ [name]) = entry,
          other.entry? (directory ++ [name]) = entry' at hkind ⊢
        cases hkind <;> rfl

end SameShape

/-! ## Making a file that is there -/

/-- Touching a file that is there changes nothing. -/
theorem touch_of_openFile {tree : Tree} {path : String} {place : List String} {content : ByteArray}
    (h : tree.openFile path = .ok (place, some content)) : tree.touch path = .ok tree := by
  rw [touch, h]
  rfl

/-- A file that has been made is there the next time, whatever it holds then. -/
theorem touch_of_touch {tree after other : Tree} {path : String} (h : tree.touch path = .ok after)
    (hshape : after.SameShape other) : other.touch path = .ok other := by
  obtain ⟨place, found, hopen, hafter⟩ := exists_of_touch h
  obtain ⟨content, hthere⟩ : ∃ content, after.openFile path = .ok (place, some content) := by
    rcases hafter with ⟨content, rfl, rfl⟩ | ⟨rfl, rfl⟩
    · exact ⟨content, hopen⟩
    · obtain ⟨opens⟩ := opens_of_openFile hopen
      refine ⟨ByteArray.empty, ?_⟩
      rw [(opens.put ByteArray.empty opens.free).openFile_eq,
        tree.entry?_put_self opens.place_ne_nil]
  have hsame := hshape.openFile_eq path
  rw [hthere] at hsame
  rcases hother : other.openFile path with fault | ⟨place', found'⟩
  · rw [hother] at hsame
    cases hsame
  · rw [hother] at hsame
    cases found' with
    | none => cases hsame
    | some content' => exact touch_of_openFile hother

/-- What cannot be made cannot be made the next time either. -/
theorem touch_of_touch_error {tree other : Tree} {path : String} {fault : FileFault}
    (h : tree.touch path = .error fault) (hshape : tree.SameShape other) :
    other.touch path = .error fault := by
  have hsame := hshape.openFile_eq path
  rcases hopen : tree.openFile path with fault' | ⟨place, _ | content⟩
  · rw [touch, hopen] at h
    cases h
    rw [hopen] at hsame
    rcases hother : other.openFile path with fault' | found
    · rw [hother] at hsame
      cases hsame
      rw [touch, hother]
      rfl
    · rw [hother] at hsame
      cases hsame
  · rw [touch, hopen] at h
    cases h
  · rw [touch, hopen] at h
    cases h

/-- Touching a file keeps a tree rooted. -/
theorem Rooted.touch {tree after : Tree} {path : String} (h : tree.Rooted)
    (htouch : tree.touch path = .ok after) : after.Rooted := by
  obtain ⟨place, found, hopen, ⟨content, -, rfl⟩ | ⟨-, rfl⟩⟩ := exists_of_touch htouch
  · exact h
  · obtain ⟨opens⟩ := opens_of_openFile hopen
    exact opens.rooted_put h _

/-! ## Writing over a file -/

/-- Only what is put last stays. -/
theorem put_put (tree : Tree) (place : List String) (first second : Entry) :
    (tree.put place first).put place second = tree.put place second := by
  unfold put
  simp [List.filter_filter]

namespace Stands

variable {tree after : Tree} {path other : String} {place : List String} {content : ByteArray}

theorem read (h : tree.Stands path place content) : tree.read path = .ok content := by
  obtain ⟨opens⟩ := h.opens
  exact opens.read_eq h.entry

/-- A file that is there is not touched by the making of any file. -/
theorem touch (h : tree.Stands path place content) (htouch : tree.touch other = .ok after) :
    after.Stands path place content := by
  obtain ⟨made, found, hopen, ⟨_, -, rfl⟩ | ⟨rfl, rfl⟩⟩ := exists_of_touch htouch
  · exact h
  · obtain ⟨opens⟩ := h.opens
    obtain ⟨opensMade⟩ := opens_of_openFile hopen
    refine ⟨⟨opens.put _ opensMade.free⟩, ?_⟩
    have hne : place ≠ made := by
      rintro rfl
      rw [opensMade.openFile_eq, h.entry] at hopen
      cases hopen
    rw [entry?_put_of_ne tree hne, h.entry]

/-- Another content for the file. -/
theorem put (h : tree.Stands path place content) (new : ByteArray) :
    (tree.put place (.file new)).Stands path place new := by
  obtain ⟨opens⟩ := h.opens
  exact ⟨⟨opens.put new opens.free⟩, tree.entry?_put_self opens.place_ne_nil _⟩

/-- Writing over a file that stands keeps the shape of the tree. -/
theorem sameShape_put (h : tree.Stands path place content) (new : ByteArray) :
    tree.SameShape (tree.put place (.file new)) := by
  obtain ⟨opens⟩ := h.opens
  exact .put opens.place_ne_nil h.entry new

end Stands

end Tree

/-- Where a file can be opened, the directory of it need not be made. -/
theorem outcome_makeRoomFor {tree : Tree} {path : String} {place : List String}
    (opens : tree.Opens path place) : outcome (makeRoomFor path) tree = (.ok (), tree) := by
  unfold makeRoomFor
  cases hdirectory : directoryOf? path with
  | none => rfl
  | some directory =>
      have hlast : (Path.parts path).getLast? ≠ some "." := by
        rw [opens.parts, List.getLast?_concat]
        exact fun h => opens.dot (Option.some.inj h)
      obtain ⟨hfronts, hnonempty, count, name, hparts⟩ :=
        Path.exists_of_directoryOf? hdirectory opens.slash hlast
      have horigin := Tree.origin_of_prefix hfronts hnonempty opens.origin
      have hnames : opens.names = Path.parts directory ++ List.replicate count "." := by
        rw [opens.parts, ← List.append_assoc] at hparts
        exact (List.append_inj' hparts rfl).1
      have hwalk : tree.walk opens.here (Path.parts directory) = .ok opens.directory :=
        Tree.walk_of_walk_dots (hnames ▸ opens.walk_names)
      exact Tree.outcome_makeDirectories_of_walk horigin hwalk opens.entry?_directory

end Montage
