import Mathlib.Data.List.TakeWhile
import Montage.Files.Stored

/-!
# The directory in a path

The directory in which a path lies is found on the text of the path alone.  `names_dropSlack`
says what gets lost when slashes and names `.` are dropped from the end of a path, and so
`exists_of_directoryOf?` that the names in a path are those in its directory, then names `.`
that lead nowhere else, and then the last one.
-/

namespace Montage

namespace Path

/-! ## Names between slashes -/

/-- The names in the characters of a path. -/
def names (path : List Char) : List (List Char) := (split path).filter (! ·.isEmpty)

theorem parts_eq (path : String) : parts path = (names path.toList).map String.ofList := rfl

/-- Splitting at slashes gives at least one part, also for the empty path. -/
theorem split_ne_nil (path : List Char) : split path ≠ [] := by
  cases path with
  | nil => exact List.cons_ne_nil _ _
  | cons c rest =>
      rw [split]
      split
      · exact List.cons_ne_nil _ _
      · split <;> exact List.cons_ne_nil _ _

/-- One character more either opens a new part or joins the first one. -/
theorem split_cons {c : Char} {rest part : List Char} {more : List (List Char)}
    (h : split rest = part :: more) :
    split (c :: rest) = if c = '/' then [] :: part :: more else (c :: part) :: more := by
  rw [split, h]

/-- A slash divides the parts in front of it from those behind it. -/
theorem split_append_slash (front back : List Char) :
    split (front ++ '/' :: back) = split front ++ split back := by
  obtain ⟨first, others, hback⟩ := List.exists_cons_of_ne_nil (split_ne_nil back)
  induction front with
  | nil =>
      rw [List.nil_append, split_cons hback, if_pos rfl, hback]
      rfl
  | cons c front ih =>
      obtain ⟨part, more, hfront⟩ := List.exists_cons_of_ne_nil (split_ne_nil front)
      have hwhole : split (front ++ '/' :: back) = part :: (more ++ split back) := by
        rw [ih, hfront, List.cons_append]
      rw [List.cons_append, split_cons hwhole, split_cons hfront]
      split <;> rfl

/-- A slash separates: the names on its two sides are found apart from each other. -/
theorem names_append_slash (front back : List Char) :
    names (front ++ '/' :: back) = names front ++ names back := by
  rw [names, split_append_slash, List.filter_append]
  rfl

/-- Without a slash there is a single part. -/
theorem split_of_slash_not_mem {name : List Char} (h : '/' ∉ name) : split name = [name] := by
  induction name with
  | nil => rfl
  | cons c name ih =>
      have hc : c ≠ '/' := fun heq => h (heq ▸ List.mem_cons_self)
      rw [split_cons (ih fun hmem => h (List.mem_cons_of_mem c hmem)), if_neg hc]

/-- A name stands for itself. -/
theorem names_of_slash_not_mem {name : List Char} (hsome : name ≠ []) (h : '/' ∉ name) :
    names name = [name] := by
  rw [names, split_of_slash_not_mem h, List.filter_cons_of_pos (by simpa using hsome)]
  rfl

/-! ## What is dropped -/

/-- What is left after dropping slack is the end of the reversed path, so nothing but slack
goes. -/
theorem dropSlack_isSuffix (reversed : List Char) : dropSlack reversed <:+ reversed := by
  fun_induction dropSlack reversed with
  | case1 => exact List.suffix_refl _
  | case2 rest _ ih => exact ih.trans (List.suffix_cons _ _)
  | case3 rest ih => exact ih.trans (List.suffix_cons _ _)
  | case4 path => exact List.suffix_refl _

/-- What is dropped from the end of a path holds nothing but names `.`. -/
theorem names_dropSlack (reversed : List Char) : ∀ back : List Char,
    ∃ count, names (reversed.reverse ++ '/' :: back)
      = names (dropSlack reversed).reverse ++ (List.replicate count ['.'] ++ names back) := by
  fun_induction dropSlack reversed with
  | case1 => exact fun back => ⟨0, names_append_slash ['/'] back⟩
  | case2 rest _ ih =>
      intro back
      obtain ⟨count, hcount⟩ := ih back
      refine ⟨count, ?_⟩
      have hslash : names ('/' :: back) = names back := names_append_slash [] back
      rw [← hcount, List.reverse_cons, List.append_assoc, List.singleton_append,
        names_append_slash, names_append_slash, hslash]
  | case3 rest ih =>
      intro back
      obtain ⟨count, hcount⟩ := ih ('.' :: '/' :: back)
      have hdot : names ('.' :: '/' :: back) = ['.'] :: names back := names_append_slash ['.'] back
      have hslash : names ('/' :: '.' :: '/' :: back) = names ('.' :: '/' :: back) :=
        names_append_slash [] ('.' :: '/' :: back)
      refine ⟨count + 1, ?_⟩
      rw [List.reverse_cons, List.append_assoc, List.singleton_append, names_append_slash,
        hslash, hdot] at hcount
      rw [List.reverse_cons, List.reverse_cons, List.append_assoc, List.append_assoc,
        List.singleton_append, List.singleton_append, names_append_slash, hdot, hcount,
        List.replicate_succ', List.append_assoc, List.singleton_append]
  | case4 path => exact fun back => ⟨0, names_append_slash path.reverse back⟩

/-! ## The directory -/

/-- A path that ends in a name other than `.` has nothing to drop at its end. -/
theorem dropSlack_append {last above : List Char} (hsome : last ≠ []) (hslash : '/' ∉ last)
    (hdot : last ≠ ['.']) : dropSlack (last ++ above) = last ++ above := by
  obtain ⟨c, more, rfl⟩ := List.exists_cons_of_ne_nil hsome
  have hc : c ≠ '/' := fun heq => hslash (heq ▸ List.mem_cons_self)
  refine dropSlack.eq_4 _ (fun h => hc (List.cons.inj h).1) (fun _ h => hc (List.cons.inj h).1)
    fun rest h => ?_
  obtain ⟨rfl, hmore⟩ := List.cons.inj h
  cases more with
  | nil => exact hdot rfl
  | cons d more =>
      obtain ⟨rfl, -⟩ := List.cons.inj hmore
      exact hslash (by simp)

/-- The parent of a path that ends in a name other than `.` is what stands above the name. -/
theorem parent?_of_append {path : String} {last above : List Char} (hsome : last ≠ [])
    (hslash : '/' ∉ last) (hdot : last ≠ ['.']) (hpath : path.toList.reverse = last ++ above)
    (habove : above = [] ∨ ∃ rest, above = '/' :: rest) :
    parent? path = some (String.ofList (dropSlack above).reverse) := by
  have hrest : (last ++ above).dropWhile (· ≠ '/') = above := by
    rw [List.dropWhile_append_of_pos (fun c hc => by
      simpa using fun heq : c = '/' => hslash (heq ▸ hc))]
    rcases habove with rfl | ⟨rest, rfl⟩ <;> simp
  have hnil : last ++ above ≠ [] := by simp [hsome]
  have hroot : last ++ above ≠ ['/'] := by
    intro h
    obtain ⟨c, more, rfl⟩ := List.exists_cons_of_ne_nil hsome
    exact hslash ((List.cons.inj h).1 ▸ List.mem_cons_self)
  rw [parent?, hpath, dropSlack_append hsome hslash hdot]
  simp only [hnil, hroot, or_self, ↓reduceIte, hrest]

/-- The last name of a path, with its slash in front of it. -/
theorem exists_last (path : String) (hslash : endsInSlash path = false) (hsome : path ≠ "") :
    ∃ last above : List Char, path.toList.reverse = last ++ above ∧ last ≠ [] ∧ '/' ∉ last ∧
      (above = [] ∨ ∃ rest, above = '/' :: rest) := by
  obtain ⟨last, hlast⟩ : ∃ last, path.toList.reverse.takeWhile (· ≠ '/') = last := ⟨_, rfl⟩
  obtain ⟨above, habove⟩ : ∃ above, path.toList.reverse.dropWhile (· ≠ '/') = above := ⟨_, rfl⟩
  have hreversed : path.toList.reverse = last ++ above := by
    rw [← hlast, ← habove, List.takeWhile_append_dropWhile]
  have hstops : above = [] ∨ ∃ rest, above = '/' :: rest := by
    have hhead := List.head?_dropWhile_not (· ≠ '/') path.toList.reverse
    rw [habove] at hhead
    cases above with
    | nil => exact .inl rfl
    | cons c rest =>
        obtain rfl : c = '/' := by simpa using hhead
        exact .inr ⟨rest, rfl⟩
  refine ⟨last, above, hreversed, ?_, ?_, hstops⟩
  · rintro rfl
    rcases hstops with rfl | ⟨rest, rfl⟩
    · exact hsome (by simpa using hreversed)
    · rw [endsInSlash, ← List.head?_reverse, hreversed] at hslash
      simp at hslash
  · intro hmem
    rw [← hlast] at hmem
    simpa using List.mem_takeWhile_imp hmem

/-- A path whose last name is neither cut off by a slash nor `.` goes on from its directory by
names `.` and that name. -/
theorem exists_of_directoryOf? {path directory : String} (h : directoryOf? path = some directory)
    (hslash : endsInSlash path = false) (hdot : (parts path).getLast? ≠ some ".") :
    directory.toList <+: path.toList ∧ directory ≠ "" ∧
      ∃ count name, parts path = parts directory ++ (List.replicate count "." ++ [name]) := by
  obtain ⟨hparent, hnonempty⟩ := Option.filter_eq_some_iff.mp h
  have hsome : path ≠ "" := by
    rintro rfl
    rw [parent?] at hparent
    simp [dropSlack] at hparent
  obtain ⟨last, above, hreversed, hlast, hclean, hstops⟩ := exists_last path hslash hsome
  have hpath : path.toList = above.reverse ++ last.reverse := by
    rw [← List.reverse_append, ← hreversed, List.reverse_reverse]
  have hname : names last.reverse = [last.reverse] :=
    names_of_slash_not_mem (by simpa using hlast) (by simpa using hclean)
  have hends : ∃ front, names path.toList = front ++ [last.reverse] := by
    rcases hstops with rfl | ⟨rest, rfl⟩
    · exact ⟨[], by rw [hpath]; exact hname⟩
    · refine ⟨names rest.reverse, ?_⟩
      rw [hpath, List.reverse_cons, List.append_assoc, List.singleton_append, names_append_slash,
        hname]
  -- a last name `.` would be slack, and the parent that of the name in front of it
  have hnoDot : last ≠ ['.'] := by
    rintro rfl
    obtain ⟨front, hfront⟩ := hends
    rw [parts_eq, hfront] at hdot
    simp at hdot
  have hdirectory : directory = String.ofList (dropSlack above).reverse := by
    rw [parent?_of_append hlast hclean hnoDot hreversed hstops] at hparent
    exact (Option.some.inj hparent).symm
  have hchars : directory.toList = (dropSlack above).reverse := by
    rw [hdirectory, String.toList_ofList]
  refine ⟨?_, by simpa using hnonempty, ?_⟩
  · rw [hchars, hpath]
    exact (List.reverse_prefix.mpr (dropSlack_isSuffix above)).trans (List.prefix_append _ _)
  · rcases hstops with rfl | ⟨rest, rfl⟩
    · simp [hdirectory, dropSlack] at hnonempty
    · obtain ⟨count, hcount⟩ := names_dropSlack ('/' :: rest) last.reverse
      refine ⟨count, String.ofList last.reverse, ?_⟩
      have hsame : names path.toList = names (('/' :: rest).reverse ++ '/' :: last.reverse) := by
        have hslash : names ('/' :: last.reverse) = names last.reverse :=
          names_append_slash [] last.reverse
        rw [hpath, List.reverse_cons, List.append_assoc, List.append_assoc, List.singleton_append,
          List.singleton_append, names_append_slash, names_append_slash, hslash]
      rw [parts_eq, parts_eq, hchars, hsame, hcount, hname]
      simp [List.map_append, List.map_replicate]

end Path

end Montage
