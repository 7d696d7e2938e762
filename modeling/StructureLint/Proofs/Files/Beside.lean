import StructureLint.Files.Basic
/-!
# Paths to files beside each other

The path of a file without its last component, and the name of another one behind it, lead to the
directory in which the file was found, and there to that name (`resolve_join_parent`). Of the texts
in between only the components that lead somewhere count (`named`), and these are kept when the path
is taken apart and put together again (`parent?_eq`, `components_join`).
-/

namespace StructureLint

namespace Path

/-- The components of a text that lead somewhere. -/
def named (cs : List Char) : List (List Char) :=
  (cs.splitOn '/').filter (!isVoid ·)

/-- One component, which leads somewhere. -/
structure Plain (name : String) : Prop where
  slash : '/' ∉ name.toList
  lead : isVoid name.toList = false

variable {path name directory : String} {cs : List Char}

theorem named_append (xs ys : List Char) : named (xs ++ '/' :: ys) = named xs ++ named ys := by
  rw [named, List.splitOn_append_cons_self, List.filter_append]
  rfl

theorem named_nil : named [] = [] := by decide

theorem named_slash (cs : List Char) : named ('/' :: cs) = named cs := by
  simpa [named_nil] using named_append [] cs

/-! ## Putting a path together -/

/-- The text ends with a name, behind a slash or as the whole of it. -/
def EndsWith (cs xs : List Char) (name : String) : Prop :=
  cs = xs ++ '/' :: name.toList ∨ cs = name.toList ∧ xs = []

theorem components_of_endsWith {xs : List Char} (hname : Plain name)
    (hpath : EndsWith path.toList xs name) :
    components path = (named xs).map String.ofList ++ [name] := by
  have hsplit : name.toList.splitOn '/' = [name.toList] := List.splitOn_eq_singleton hname.slash
  have hall : ∃ before, path.toList.splitOn '/' = before ++ [name.toList] ∧
      before.filter (!isVoid ·) = named xs := by
    rcases hpath with hpath | ⟨hpath, rfl⟩
    · exact ⟨xs.splitOn '/', by rw [hpath, List.splitOn_append_cons_self, hsplit], rfl⟩
    · exact ⟨[], by rw [hpath, hsplit]; rfl, named_nil.symm⟩
  obtain ⟨before, hall, hbefore⟩ := hall
  simp [components, hall, hname.lead, hbefore]

theorem isAbsolute_eq_false (hname : Plain name) : isAbsolute name = false := by
  rw [isAbsolute]
  cases hcs : name.toList with
  | nil => rfl
  | cons c cs =>
    have hne : c ≠ '/' := by
      rintro rfl
      exact hname.slash (by simp [hcs])
    simpa using hne

theorem components_join (hname : Plain name) :
    components (join directory name) = (named directory.toList).map String.ofList ++ [name] := by
  rw [join, isAbsolute_eq_false hname, Bool.false_or]
  split
  · rename_i hempty
    have hnil : directory.toList = [] := by simpa using hempty
    rw [hnil]
    exact components_of_endsWith hname (.inr ⟨rfl, rfl⟩)
  · split
    · rename_i hlast
      obtain ⟨xs, hxs⟩ : ∃ xs, directory.toList = xs ++ ['/'] :=
        List.getLast?_eq_some_iff.1 (by simpa using hlast)
      have hnamed : named directory.toList = named xs := by
        rw [hxs, named_append, named_nil, List.append_nil]
      rw [hnamed]
      exact components_of_endsWith hname (.inl (by simp [hxs]))
    · exact components_of_endsWith hname (.inl (by simp))

theorem isAbsolute_join (hname : Plain name) :
    isAbsolute (join directory name) = isAbsolute directory := by
  rw [join, isAbsolute_eq_false hname, Bool.false_or]
  split
  · rename_i hempty
    have hnil : directory.toList = [] := by simpa using hempty
    rw [isAbsolute_eq_false hname, isAbsolute, hnil]
    rfl
  · rename_i hempty
    have hne : directory.toList ≠ [] := by simpa using hempty
    obtain ⟨c, cs, hcs⟩ := List.exists_cons_of_ne_nil hne
    split <;> simp [isAbsolute, hcs]

/-! ## Taking a path apart -/

theorem named_of_isVoid (h : isVoid cs = true) : named cs = [] := by
  rw [isVoid, Bool.or_eq_true, List.isEmpty_iff, beq_iff_eq] at h
  rcases h with rfl | rfl <;> decide

theorem named_intercalate (ls : List (List Char)) :
    named (['/'].intercalate ls) = ls.flatMap named := by
  induction ls with
  | nil => exact named_nil
  | cons l ls ih =>
    cases ls with
    | nil => simp
    | cons l' ls =>
      rw [List.intercalate_cons_cons, List.append_assoc, List.singleton_append, named_append, ih]
      rfl

theorem isPrefix_intercalate (ls ls' : List (List Char)) :
    ['/'].intercalate ls <+: ['/'].intercalate (ls ++ ls') := by
  induction ls with
  | nil => exact List.nil_prefix
  | cons l ls ih =>
    cases ls with
    | nil =>
      cases ls' with
      | nil => simp
      | cons l' ls' =>
        rw [List.intercalate_singleton, List.singleton_append, List.intercalate_cons_cons,
          List.append_assoc]
        exact List.prefix_append ..
    | cons l' ls =>
      rw [List.cons_append, List.cons_append, List.intercalate_cons_cons,
        List.intercalate_cons_cons]
      exact (List.prefix_append_right_inj _).2 ih

/-- A text without the components at its end that lead nowhere, and the slashes before these. -/
def trimmed (xs : List Char) : List Char :=
  ['/'].intercalate ((xs.splitOn '/').reverse.dropWhile isVoid).reverse

theorem trimmed_nil : trimmed [] = [] := by decide

theorem trimmed_split (xs : List Char) : ∃ kept void, xs.splitOn '/' = kept ++ void ∧
    trimmed xs = ['/'].intercalate kept ∧ ∀ l ∈ void, isVoid l = true := by
  refine ⟨((xs.splitOn '/').reverse.dropWhile isVoid).reverse,
    ((xs.splitOn '/').reverse.takeWhile isVoid).reverse, ?_, rfl, fun l hl => ?_⟩
  · rw [← List.reverse_append, List.takeWhile_append_dropWhile, List.reverse_reverse]
  · exact List.all_eq_true.1 List.all_takeWhile l (List.mem_reverse.1 hl)

theorem named_trimmed (xs : List Char) : named (trimmed xs) = named xs := by
  obtain ⟨kept, void, hsplit, htrimmed, hvoid⟩ := trimmed_split xs
  have hnone : void.flatMap named = [] :=
    List.flatMap_eq_nil_iff.2 fun l hl => named_of_isVoid (hvoid l hl)
  have hxs : named xs = (xs.splitOn '/').flatMap named := by
    rw [← named_intercalate, List.intercalate_splitOn]
  rw [hxs, hsplit, List.flatMap_append, hnone, List.append_nil, htrimmed, named_intercalate]

theorem isPrefix_trimmed (xs : List Char) : trimmed xs <+: xs := by
  obtain ⟨kept, void, hsplit, htrimmed, -⟩ := trimmed_split xs
  have hprefix := isPrefix_intercalate kept void
  rwa [← hsplit, List.intercalate_splitOn, ← htrimmed] at hprefix

theorem parent?_eq {root body xs : List Char} (hname : Plain name)
    (hroot : splitRoot path.toList = (root, body)) (hbody : EndsWith body xs name) :
    parent? path = some (String.ofList (root ++ trimmed xs)) := by
  have hsplit : name.toList.splitOn '/' = [name.toList] := List.splitOn_eq_singleton hname.slash
  rw [parent?, hroot]
  rcases hbody with rfl | ⟨rfl, rfl⟩
  · simp [List.splitOn_append_cons_self, hsplit, hname.lead, trimmed]
  · simp [hsplit, hname.lead, trimmed_nil]

/-- A slash at the front belongs to no component. -/
theorem EndsWith.slash {xs : List Char} (hname : Plain name) (h : EndsWith ('/' :: cs) xs name) :
    (xs = [] ∨ xs.head? = some '/') ∧ ∃ ys, EndsWith cs ys name ∧ named ys = named xs := by
  rcases h with h | ⟨h, -⟩
  · cases xs with
    | nil => exact ⟨.inl rfl, [], .inr ⟨(List.cons.inj h).2, rfl⟩, rfl⟩
    | cons c xs =>
      obtain ⟨rfl, hcs⟩ := List.cons.inj h
      exact ⟨.inr rfl, xs, .inl hcs, (named_slash xs).symm⟩
  · exact absurd (by simp [← h]) hname.slash

theorem EndsWith.dot {xs : List Char} (hname : Plain name)
    (h : EndsWith ('.' :: '/' :: cs) xs name) :
    ∃ ys, xs = '.' :: ys ∧ EndsWith ('/' :: cs) ys name := by
  rcases h with h | ⟨h, -⟩
  · cases xs with
    | nil => exact absurd (List.cons.inj h).1 (by decide)
    | cons c xs =>
      obtain ⟨rfl, hcs⟩ := List.cons.inj h
      exact ⟨xs, rfl, .inl hcs⟩
  · exact absurd (by simp [← h]) hname.slash

theorem named_dot (h : cs = [] ∨ cs.head? = some '/') : named ('.' :: cs) = named cs := by
  rcases h with rfl | h
  · decide
  · obtain ⟨cs, rfl⟩ := List.head?_eq_some_iff.1 h
    have hdot : named ['.'] = [] := by decide
    rw [← List.singleton_append, named_append, hdot, named_slash, List.nil_append]

theorem eq_nil_or_head?_eq {xs ys : List Char} (h : xs <+: ys) : xs = [] ∨ xs.head? = ys.head? := by
  obtain ⟨zs, rfl⟩ := h
  cases xs with
  | nil => exact .inl rfl
  | cons c xs => exact .inr rfl

/-- The path of the directory is absolute if that of the file is, and has the same components but
for the name. -/
theorem exists_parent {xs : List Char} (hname : Plain name)
    (hpath : EndsWith path.toList xs name) :
    ∃ directory, parent? path = some directory ∧ isAbsolute directory = isAbsolute path ∧
      named directory.toList = named xs := by
  rcases hroot : splitRoot path.toList with ⟨root, body⟩
  have hparent : ∀ {ys}, EndsWith body ys name →
      parent? path = some (String.ofList (root ++ trimmed ys)) := parent?_eq hname hroot
  rw [isAbsolute]
  generalize path.toList = cs at hpath hroot
  unfold splitRoot at hroot
  split at hroot <;> cases hroot
  · obtain ⟨-, ys, hbody, hnamed⟩ := hpath.slash hname
    refine ⟨_, hparent hbody, by simp [isAbsolute], ?_⟩
    rw [String.toList_ofList, List.singleton_append, named_slash, named_trimmed, hnamed]
  · rcases hpath with hdot | ⟨hdot, -⟩
    · have hmem : '/' ∈ ['.'] := by simp [hdot]
      exact absurd hmem (by decide)
    · have hlead := hname.lead
      rw [← hdot] at hlead
      exact absurd hlead (by decide)
  · obtain ⟨ys, rfl, hbody⟩ := hpath.dot hname
    obtain ⟨hys, -⟩ := hbody.slash hname
    have htrimmed : trimmed ys = [] ∨ (trimmed ys).head? = some '/' := by
      rcases hys with rfl | hys
      · exact .inl trimmed_nil
      · exact hys ▸ eq_nil_or_head?_eq (isPrefix_trimmed ys)
    refine ⟨_, hparent hbody, by simp [isAbsolute], ?_⟩
    rw [String.toList_ofList, List.singleton_append, named_dot htrimmed, named_trimmed,
      named_dot hys]
  · refine ⟨_, hparent hpath, ?_, by rw [String.toList_ofList, List.nil_append, named_trimmed]⟩
    rename_i hrelative _ _
    have hbody : body.head? ≠ some '/' := fun h => by
      obtain ⟨cs, rfl⟩ := List.head?_eq_some_iff.1 h
      exact hrelative cs rfl
    have htrimmed : (trimmed xs).head? ≠ some '/' := by
      rcases eq_nil_or_head?_eq (isPrefix_trimmed xs) with hnil | hhead
      · simp [hnil]
      · rw [hhead]
        rcases hpath with rfl | ⟨-, rfl⟩
        · intro h
          exact hbody (by rw [List.head?_append, h]; rfl)
        · simp
    rw [isAbsolute, String.toList_ofList, List.nil_append, beq_eq_false_iff_ne.2 htrimmed,
      beq_eq_false_iff_ne.2 hbody]

theorem exists_endsWith (cs : List Char) : ∃ xs l, '/' ∉ l ∧ EndsWith cs xs (String.ofList l) := by
  induction cs with
  | nil => exact ⟨[], [], by simp, .inr (by simp)⟩
  | cons c cs ih =>
    obtain ⟨xs, l, hl, rfl | ⟨rfl, rfl⟩⟩ := ih
    · exact ⟨c :: xs, l, hl, .inl rfl⟩
    · rw [String.toList_ofList]
      by_cases hc : c = '/'
      · exact ⟨[], l, hl, .inl (by simp [hc])⟩
      · exact ⟨[], c :: l, by simp [Ne.symm hc, hl], .inr (by simp)⟩

theorem components_of_isVoid {xs l : List Char} (hl : '/' ∉ l) (hvoid : isVoid l = true)
    (h : EndsWith path.toList xs (String.ofList l)) : ∃ cs, components path = cs ++ ["."] := by
  have hlast : (path.toList.splitOn '/').getLast? = some l := by
    rcases h with h | ⟨h, -⟩
    · rw [h, List.splitOn_append_cons_self, String.toList_ofList, List.splitOn_eq_singleton hl,
        List.getLast?_concat]
    · rw [h, String.toList_ofList, List.splitOn_eq_singleton hl]
      rfl
  exact ⟨(named path.toList).map String.ofList, by simp [components, named, hlast, hvoid]⟩

theorem join_ne_empty (hname : Plain name) : (join directory name).isEmpty = false := by
  have hne : name ≠ "" := by
    rintro rfl
    exact absurd hname.lead (by decide)
  rw [join]
  split
  · simpa using hne
  · split <;> simp [hne]

end Path

namespace Files

variable {fs : Files} {directory place : Place} {content : ByteArray} {rights : Rights}
  {path name : String}

/-! ## Following a path -/

/-- What a path leads to if it ends at a place in a directory. -/
def target (fs : Files) (place : Place) : Target :=
  match fs.at? place with
  | none => .vacant place
  | some entry => .found place entry

theorem follow_name (hname : Path.Plain name) (hup : name ≠ "..")
    (hsize : name.utf8ByteSize ≤ maxNameSize) :
    fs.follow directory [name] = .ok (fs.target (directory ++ [name])) := by
  have hdot : name ≠ "." := by
    rintro rfl
    exact absurd hname.lead (by decide)
  rw [follow, if_neg hdot, if_neg hup, if_neg (Nat.not_lt.2 hsize), target]
  dsimp only
  cases fs.at? (directory ++ [name]) with
  | none => rfl
  | some entry => cases entry <;> rfl

/-- A path that leads to a file ends with its name, and with another name it leads to what this is
in the same directory. -/
theorem follow_concat {cs : List String} {c : String}
    (h : fs.follow directory (cs ++ [c]) = .ok (.found place (.file content rights))) :
    c ≠ "." ∧ ∃ above, place = above ++ [c] ∧
      ∀ name, Path.Plain name → name ≠ ".." → name.utf8ByteSize ≤ maxNameSize →
        fs.follow directory (cs ++ [name]) = .ok (fs.target (above ++ [name])) := by
  induction cs generalizing directory with
  | nil =>
    rw [List.nil_append, follow] at h
    split at h
    · cases h
    split at h
    · cases h
    split at h
    · cases h
    dsimp only at h
    refine ⟨‹_›, directory, ?_, fun name => follow_name⟩
    cases he : fs.at? (directory ++ [c]) with
    | none =>
      rw [he] at h
      cases h
    | some entry =>
      rw [he] at h
      cases entry <;> cases h
      rfl
  | cons d cs ih =>
    have hmore : ∀ c, (cs ++ [c]).isEmpty = false := by simp
    rw [List.cons_append] at h
    simp only [List.cons_append, follow, hmore] at h ⊢
    split at h
    · simp only [if_pos ‹d = "."›]
      exact ih h
    simp only [if_neg ‹¬d = "."›]
    split at h
    · simp only [if_pos ‹d = ".."›]
      exact ih h
    simp only [if_neg ‹¬d = ".."›]
    split at h
    · cases h
    simp only [if_neg ‹¬maxNameSize < d.utf8ByteSize›]
    cases he : fs.at? (directory ++ [d]) with
    | none =>
      rw [he] at h
      cases h
    | some entry =>
      rw [he] at h
      cases entry with
      | directory => exact ih h
      | file content rights => cases h

/-- A file lies in a directory of which the path is that of the file without its last component.
Another name in this directory leads to what is there, unless it or the path with it is too long. -/
theorem resolve_join_parent {file : String}
    (h : fs.resolve file = .ok (.found place (.file content rights))) :
    ∃ parent, Path.parent? file = some parent ∧
      ∀ name, Path.Plain name → name ≠ ".." → name.utf8ByteSize ≤ maxNameSize →
        (Path.join parent name).utf8ByteSize ≤ maxPathSize →
        fs.resolve (Path.join parent name) = .ok (fs.target (place.dropLast ++ [name])) := by
  unfold resolve at h
  split at h
  · cases h
  split at h
  · cases h
  obtain ⟨xs, l, hl, hends⟩ := Path.exists_endsWith file.toList
  by_cases hvoid : Path.isVoid l = true
  · obtain ⟨cs, hcs⟩ := Path.components_of_isVoid hl hvoid hends
    rw [hcs] at h
    exact absurd rfl (follow_concat h).1
  · have hplain : Path.Plain (String.ofList l) := ⟨by simpa using hl, by simpa using hvoid⟩
    rw [Path.components_of_endsWith hplain hends] at h
    obtain ⟨-, above, rfl, hsibling⟩ := follow_concat h
    obtain ⟨parent, hparent, habsolute, hnamed⟩ := Path.exists_parent hplain hends
    refine ⟨parent, hparent, fun name hname hup hsize hpath => ?_⟩
    rw [resolve, Path.join_ne_empty hname, if_neg (by simp), if_neg (Nat.not_lt.2 hpath),
      Path.isAbsolute_join hname, habsolute, Path.components_join hname, hnamed,
      hsibling name hname hup hsize, List.dropLast_concat]

/-- The place of the file that a path leads to. -/
def filePlace? (fs : Files) (path : String) : Option Place :=
  match fs.resolve path with
  | .ok (.found place (.file ..)) => some place
  | _ => none

theorem filePlace?_eq_some_iff : fs.filePlace? path = some place ↔
    ∃ content rights, fs.resolve path = .ok (.found place (.file content rights)) := by
  unfold filePlace?
  split <;> simp_all

end Files

end StructureLint
