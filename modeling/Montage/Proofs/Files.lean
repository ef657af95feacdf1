import Mathlib.Data.List.Basic
import Montage.Files.Tree
import Montage.Proofs.Failing

/-!
# What has been written to a file is read from it

Putting something at a place where no directory stands leaves the ways through all
directories as they are (`Tree.walk_put`), so the path that led to the place still does, and
the file there holds what has been written (`Tree.read_of_write`).  What is added to a file
stands behind what it held, and no other file is changed by it (`Tree.read_of_append`).
-/

namespace Montage

namespace Tree

/-! ## Places -/

/-- Taking out what stands at one place leaves what is found at another. -/
theorem lookup_filter_ne {place other : List String} (h : other ≠ place) :
    ∀ entries : List (List String × Entry),
      (entries.filter (·.1 != place)).lookup other = entries.lookup other := by
  intro entries
  induction entries with
  | nil => rfl
  | cons entry entries ih =>
      obtain ⟨here, content⟩ := entry
      by_cases hhere : here = place
      · have hother : (other == here) = false := by
          rw [hhere]
          exact beq_eq_false_iff_ne.mpr h
        rw [List.filter_cons_of_neg (by simp [hhere]), List.lookup_cons, hother]
        exact ih
      · rw [List.filter_cons_of_pos (by simp [hhere]), List.lookup_cons, List.lookup_cons, ih]

theorem entry?_put_self (tree : Tree) {place : List String} (h : place ≠ []) (entry : Entry) :
    Tree.entry? (tree.put place entry) place = some entry := by
  rw [Tree.entry?, if_neg h, put, List.lookup_cons_self]

/-- Nothing changes at other places. -/
theorem entry?_put_of_ne (tree : Tree) {place other : List String} (h : other ≠ place)
    (entry : Entry) : Tree.entry? (tree.put place entry) other = tree.entry? other := by
  have hother : (other == place) = false := beq_eq_false_iff_ne.mpr h
  simp only [Tree.entry?, put, List.lookup_cons, hother, lookup_filter_ne h]

/-! ## Ways -/

/-- Where one name leads from a directory. -/
inductive Leads (tree : Tree) (here : List String) : String → List String → Prop
  | stay : Leads tree here "." here
  | up : Leads tree here ".." here.dropLast
  | down {name : String} (dot : name ≠ ".") (dots : name ≠ "..")
      (short : ¬ longestName < name.utf8ByteSize)
      (present : (tree.entry? (here ++ [name])).isSome = true) :
      Leads tree here name (here ++ [name])

/-- A way through a directory goes on from where its first name leads. -/
theorem walk_cons {tree : Tree} {here next : List String} {name : String}
    (hhere : tree.entry? here = some .directory) (h : tree.Leads here name next)
    (names : List String) : tree.walk here (name :: names) = tree.walk next names := by
  rw [walk, hhere]
  cases h with
  | stay => rfl
  | up => rfl
  | down dot dots short present => simp only [if_neg dot, if_neg dots, if_neg short, if_pos present]

/-- A way leads through directories, one name after the other. -/
theorem exists_of_walk_cons {tree : Tree} {here place : List String} {name : String}
    {names : List String} (h : tree.walk here (name :: names) = .ok place) :
    tree.entry? here = some .directory ∧
      ∃ next, tree.Leads here name next ∧ tree.walk next names = .ok place := by
  rw [walk] at h
  split at h
  · cases h
  · cases h
  · rename_i hhere
    refine ⟨hhere, ?_⟩
    split at h
    · rename_i hdot
      exact ⟨here, hdot ▸ .stay, h⟩
    · rename_i hdot
      split at h
      · rename_i hdots
        exact ⟨here.dropLast, hdots ▸ .up, h⟩
      · rename_i hdots
        split at h
        · cases h
        · rename_i hshort
          simp only at h
          split at h
          · rename_i hpresent
            exact ⟨here ++ [name], .down hdot hdots hshort hpresent, h⟩
          · cases h

/-- The name `.` leads nowhere else. -/
theorem Leads.eq_of_dot {tree : Tree} {here next : List String} (h : tree.Leads here "." next) :
    next = here := by
  generalize hname : "." = name at h
  cases h with
  | stay => rfl
  | up => exact absurd hname (by decide)
  | down dot => exact absurd hname.symm dot

/-- A name still leads where it did after something has been put anywhere. -/
theorem Leads.put {tree : Tree} {here next place : List String} {name : String}
    (h : tree.Leads here name next) (entry : Entry) :
    (tree.put place entry).Leads here name next := by
  cases h with
  | stay => exact .stay
  | up => exact .up
  | down dot dots short present =>
      refine .down dot dots short ?_
      by_cases heq : here ++ [name] = place
      · have hsome : place ≠ [] := by
          rw [← heq]
          simp
        rw [heq, entry?_put_self tree hsome]
        rfl
      · rw [entry?_put_of_ne tree heq]
        exact present

/-- A way in two parts. -/
theorem walk_append (tree : Tree) (front back : List String) : ∀ here : List String,
    tree.walk here (front ++ back) = tree.walk here front >>= fun next => tree.walk next back := by
  induction front with
  | nil => exact fun _ => rfl
  | cons name names ih =>
      intro here
      rw [List.cons_append, walk, walk]
      split
      · rfl
      · rfl
      · simp only [ih]
        split
        · rfl
        · split
          · rfl
          · split
            · rfl
            · split <;> rfl

/-- A way that leads somewhere leads through the end of each of its fronts. -/
theorem exists_of_walk_append {tree : Tree} {here place : List String} {front back : List String}
    (h : tree.walk here (front ++ back) = .ok place) :
    ∃ next, tree.walk here front = .ok next ∧ tree.walk next back = .ok place := by
  rw [walk_append] at h
  exact exists_of_bind_eq_ok h

/-- A way that ends in a name `.` ends in a directory. -/
theorem walk_dot_eq_ok_iff {tree : Tree} {here place : List String} {names : List String} :
    tree.walk here (names ++ ["."]) = .ok place ↔
      tree.walk here names = .ok place ∧ tree.entry? place = some .directory := by
  constructor
  · intro h
    obtain ⟨next, hnext, h⟩ := exists_of_walk_append h
    obtain ⟨hdirectory, last, hleads, hend⟩ := exists_of_walk_cons h
    cases hend
    obtain rfl := hleads.eq_of_dot
    exact ⟨hnext, hdirectory⟩
  · rintro ⟨h, hplace⟩
    rw [walk_append, h]
    exact walk_cons hplace .stay []

section

variable {tree : Tree} {place : List String} (entry : Entry)
  (hplace : tree.entry? place ≠ some .directory)

include hplace

/-- A directory is still one after something has been put where no directory stands. -/
theorem entry?_put_of_directory {here : List String} (h : tree.entry? here = some .directory) :
    Tree.entry? (tree.put place entry) here = some .directory := by
  have hne : here ≠ place := by
    rintro rfl
    exact hplace h
  rw [entry?_put_of_ne tree hne, h]

/-- So the ways through directories are the same. -/
theorem walk_put {names here next : List String} (h : tree.walk here names = .ok next) :
    (tree.put place entry).walk here names = .ok next := by
  induction names generalizing here with
  | nil => exact h
  | cons name names ih =>
      obtain ⟨hhere, between, hleads, hnext⟩ := exists_of_walk_cons h
      rw [walk_cons (entry?_put_of_directory entry hplace hhere) (hleads.put entry)]
      exact ih hnext

end

/-! ## Files -/

/-- A file is read at the place that its path leads to. -/
theorem read_eq_ok_iff {tree : Tree} {path : String} {content : ByteArray} :
    tree.read path = .ok content ↔
      ∃ place, tree.find path = .ok place ∧ tree.entry? place = some (.file content) := by
  constructor
  · intro h
    obtain ⟨place, hfind, h⟩ := exists_of_bind_eq_ok h
    refine ⟨place, hfind, ?_⟩
    split at h
    · cases h
      assumption
    · cases h
    · cases h
  · rintro ⟨place, hfind, hentry⟩
    rw [read, hfind]
    simp only [bind, Except.bind, hentry]
    rfl

/-- A path that leads somewhere still does after something has been put where no directory
stands. -/
theorem find_put {tree : Tree} {path : String} {place other : List String} (entry : Entry)
    (hplace : tree.entry? place ≠ some .directory) (h : tree.find path = .ok other) :
    Tree.find (tree.put place entry) path = .ok other := by
  obtain ⟨here, horigin, hwalk⟩ := exists_of_bind_eq_ok h
  change tree.origin path >>= (fun here => Tree.walk (tree.put place entry) here _) = _
  rw [horigin]
  exact walk_put entry hplace hwalk

/-- A file that can be opened: the last name of its path is that of a file, and the names
before it lead to a directory. -/
structure Opens (tree : Tree) (path : String) (place : List String) where
  here : List String
  directory : List String
  names : List String
  name : String
  origin : tree.origin path = .ok here
  parts : Path.parts path = names ++ [name]
  way : tree.walk here (names ++ ["."]) = .ok directory
  dot : name ≠ "."
  dots : name ≠ ".."
  slash : Path.endsInSlash path = false
  short : ¬ longestName < name.utf8ByteSize
  place_eq : place = directory ++ [name]
  free : tree.entry? place ≠ some .directory

/-- The names in front of the last one lead to the directory in which a path ends. -/
theorem exists_of_findName {tree : Tree} {path name : String} {directory : List String}
    (h : tree.findName path = .ok (directory, some name)) :
    ∃ here names, tree.origin path = .ok here ∧ Path.parts path = names ++ [name] ∧
      tree.walk here (names ++ ["."]) = .ok directory ∧ name ≠ "." ∧ name ≠ ".." := by
  obtain ⟨here, horigin, h⟩ := exists_of_bind_eq_ok h
  simp only at h
  split at h
  · cases h
  · rename_i last hlast
    obtain ⟨found, hway, h⟩ := exists_of_bind_eq_ok h
    split at h
    · cases h
    · rename_i hname
      cases h
      obtain ⟨hdot, hdots⟩ := not_or.mp hname
      exact ⟨here, (Path.parts path).dropLast, horigin,
        (List.dropLast_append_getLast? _ hlast).symm, hway, hdot, hdots⟩

/-- A file that has been opened is one that can be opened. -/
theorem opens_of_openFile {tree : Tree} {path : String} {place : List String}
    {content : Option ByteArray} (h : tree.openFile path = .ok (place, content)) :
    Nonempty (tree.Opens path place) := by
  obtain ⟨⟨directory, name⟩, hname, h⟩ := exists_of_bind_eq_ok h
  cases name with
  | none => cases h
  | some name =>
      obtain ⟨here, names, horigin, hparts, hway, hdot, hdots⟩ := exists_of_findName hname
      simp only at h
      split at h
      · cases h
      · rename_i hslash
        split at h
        · cases h
        · rename_i hshort
          split at h
          · cases h
          · rename_i found hentry
            cases h
            exact ⟨⟨here, directory, names, name, horigin, hparts, hway, hdot, hdots,
              Bool.not_eq_true _ ▸ hslash, hshort, rfl, by simp [hentry]⟩⟩
          · rename_i hentry
            cases h
            exact ⟨⟨here, directory, names, name, horigin, hparts, hway, hdot, hdots,
              Bool.not_eq_true _ ▸ hslash, hshort, rfl, by simp [hentry]⟩⟩

namespace Opens

variable {tree : Tree} {path : String} {place : List String} (opens : tree.Opens path place)

include opens

theorem place_ne_nil : place ≠ [] := by
  rw [opens.place_eq]
  simp

theorem walk_names : tree.walk opens.here opens.names = .ok opens.directory :=
  (walk_dot_eq_ok_iff.mp opens.way).1

theorem entry?_directory : tree.entry? opens.directory = some .directory :=
  (walk_dot_eq_ok_iff.mp opens.way).2

/-- What can be opened still can when a file has been put where no directory stands. -/
def put {other : List String} (content : ByteArray)
    (hother : tree.entry? other ≠ some .directory) :
    (tree.put other (.file content)).Opens path place where
  here := opens.here
  directory := opens.directory
  names := opens.names
  name := opens.name
  origin := opens.origin
  parts := opens.parts
  way := walk_put _ hother opens.way
  dot := opens.dot
  dots := opens.dots
  slash := opens.slash
  short := opens.short
  place_eq := opens.place_eq
  free := by
    by_cases h : place = other
    · rw [← h, tree.entry?_put_self opens.place_ne_nil]
      exact fun heq => nomatch heq
    · rw [entry?_put_of_ne tree h]
      exact opens.free

/-- A file is opened by its name, whether it is there or not. -/
theorem openFile_eq : tree.openFile path = .ok (place, match tree.entry? place with
    | some (.file content) => some content
    | _ => none) := by
  have hname : tree.findName path = .ok (opens.directory, some opens.name) := by
    rw [findName, opens.origin]
    simp only [bind, Except.bind, opens.parts, List.getLast?_append_of_ne_nil, ne_eq,
      List.cons_ne_nil, not_false_eq_true, List.getLast?_singleton, List.dropLast_concat, opens.way,
      opens.dot, opens.dots, or_self, ↓reduceIte]
    rfl
  rw [openFile, hname]
  simp only [bind, Except.bind, opens.slash, opens.short, Bool.false_eq_true, ↓reduceIte,
    ← opens.place_eq]
  have hfree := opens.free
  cases hentry : tree.entry? place with
  | none => rfl
  | some entry =>
      cases entry with
      | file content => rfl
      | directory => exact absurd hentry hfree

/-- A file that is there is found. -/
theorem find_eq {content : ByteArray} (hentry : tree.entry? place = some (.file content)) :
    tree.find path = .ok place := by
  have hdown : tree.Leads opens.directory opens.name place := by
    have hpresent : (tree.entry? (opens.directory ++ [opens.name])).isSome = true := by
      rw [← opens.place_eq, hentry]
      rfl
    have hleads := Leads.down opens.dot opens.dots opens.short hpresent
    rwa [← opens.place_eq] at hleads
  rw [find, opens.origin, opens.parts, opens.slash]
  simp only [Bool.false_eq_true, ↓reduceIte, List.append_nil, bind, Except.bind, walk_append,
    opens.walk_names, walk_cons opens.entry?_directory hdown]
  rfl

/-- So it is read. -/
theorem read_eq {content : ByteArray} (hentry : tree.entry? place = some (.file content)) :
    tree.read path = .ok content :=
  read_eq_ok_iff.mpr ⟨place, opens.find_eq hentry, hentry⟩

end Opens

/-- A file is made only where there is nothing. -/
theorem exists_of_touch {tree after : Tree} {path : String} (h : tree.touch path = .ok after) :
    ∃ place found, tree.openFile path = .ok (place, found) ∧
      ((∃ content, found = some content ∧ after = tree) ∨
        (found = none ∧ after = tree.put place (.file ByteArray.empty))) := by
  obtain ⟨⟨place, found⟩, hopen, h⟩ := exists_of_bind_eq_ok h
  refine ⟨place, found, hopen, ?_⟩
  cases found with
  | none =>
      cases h
      exact .inr ⟨rfl, rfl⟩
  | some content =>
      cases h
      exact .inl ⟨content, rfl, rfl⟩

/-- What has been written is read. -/
theorem read_of_write {tree after : Tree} {path : String} {content : ByteArray}
    (h : tree.write path content = .ok after) : after.read path = .ok content := by
  obtain ⟨⟨place, previous⟩, hopen, h⟩ := exists_of_bind_eq_ok h
  cases h
  obtain ⟨opens⟩ := opens_of_openFile hopen
  exact (opens.put content opens.free).read_eq (tree.entry?_put_self opens.place_ne_nil _)

/-! ## Adding to files -/

/-- Two paths that lead to the same place. -/
def Meet (tree : Tree) (path other : String) : Prop :=
  ∃ place, tree.find path = .ok place ∧ tree.find other = .ok place

/-- What is added to a file stands behind what it held. -/
theorem exists_of_append {tree after : Tree} {path : String} {added : ByteArray}
    (h : tree.append path added = .ok after) :
    ∃ place found, tree.openFile path = .ok (place, found) ∧
      after = tree.put place (.file (found.getD ByteArray.empty ++ added)) := by
  obtain ⟨⟨place, found⟩, hopen, h⟩ := exists_of_bind_eq_ok h
  cases h
  exact ⟨place, found, hopen, rfl⟩

/-- Adding to one file changes another only if they are the same. -/
theorem read_of_append {tree after : Tree} {path other : String} {content added : ByteArray}
    (hread : tree.read other = .ok content) (h : tree.append path added = .ok after) :
    after.read other = .ok content ∨
      after.Meet other path ∧ after.read other = .ok (content ++ added) := by
  obtain ⟨place, found, hopen, rfl⟩ := exists_of_append h
  obtain ⟨opens⟩ := opens_of_openFile hopen
  obtain ⟨here, hfind, hentry⟩ := read_eq_ok_iff.mp hread
  have hthere := find_put (.file (found.getD ByteArray.empty ++ added)) opens.free hfind
  by_cases heq : here = place
  · subst heq
    -- what has been opened is the content that has been read
    rw [opens.openFile_eq, hentry] at hopen
    cases hopen
    have hnew := tree.entry?_put_self opens.place_ne_nil (.file (content ++ added))
    exact .inr ⟨⟨here, hthere, (opens.put _ opens.free).find_eq hnew⟩,
      read_eq_ok_iff.mpr ⟨here, hthere, hnew⟩⟩
  · refine .inl (read_eq_ok_iff.mpr ⟨here, hthere, ?_⟩)
    rw [entry?_put_of_ne tree heq, hentry]

end Tree

end Montage
