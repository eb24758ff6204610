import Rebuild.Path.Basic
import Rebuild.Proofs.Text

/-!
# The segments of a path

A text that is put together from segments falls into the same segments again, as long as no segment
holds a slash. Everything that is said about following paths starts from these lemmas: a path enters
only through its segments and through whether it begins at the root.
-/

namespace Rebuild

namespace Path

/-- Whether a text is a segment that is not empty. -/
structure Segment (segment : String) : Prop where
  /-- It is not empty. -/
  ne_empty : segment ≠ ""
  /-- It holds no slash. -/
  no_slash : '/' ∉ segment.toList

/-- Whether a text is a segment that counts as an ordinary name. -/
structure SegmentName (name : String) : Prop extends Segment name where
  /-- It is not a dot. -/
  ne_dot : name ≠ "."
  /-- It is not a double dot. -/
  ne_dots : name ≠ ".."

/-- Whether a text can be the name of something in a folder. -/
structure OrdinaryName (name : String) : Prop where
  /-- It is not empty. -/
  ne_empty : name ≠ ""
  /-- It is not a dot. -/
  ne_dot : name ≠ "."
  /-- It is not a double dot. -/
  ne_dots : name ≠ ".."
  /-- It holds no slash. -/
  no_slash : '/' ∉ name.toList
  /-- It holds no character that ends texts. -/
  no_nul : '\x00' ∉ name.toList

theorem OrdinaryName.segmentName {name : String} (h : OrdinaryName name) : SegmentName name :=
  ⟨⟨h.ne_empty, h.no_slash⟩, h.ne_dot, h.ne_dots⟩

instance (segment : String) : Decidable (Segment segment) :=
  decidable_of_iff (segment ≠ "" ∧ '/' ∉ segment.toList) ⟨fun h ↦ ⟨h.1, h.2⟩, fun h ↦ ⟨h.1, h.2⟩⟩

instance (name : String) : Decidable (SegmentName name) :=
  decidable_of_iff (Segment name ∧ name ≠ "." ∧ name ≠ "..")
    ⟨fun h ↦ ⟨h.1, h.2.1, h.2.2⟩, fun h ↦ ⟨h.toSegment, h.2, h.3⟩⟩

/-! ### Paths made of segments -/

theorem toList_ofBody (absolute : Bool) (segments : List String) :
    (ofBody absolute segments).text.toList =
      (if absolute then ['/'] else []) ++ ['/'].intercalate (segments.map String.toList) := by
  cases absolute <;> simp [ofBody, String.toList_intercalate]

theorem isAbsolute_ofBody_true (segments : List String) : (ofBody true segments).isAbsolute = true := by
  rw [isAbsolute, toList_ofBody]
  rfl

/-- A character that is in no part and is no separator is nowhere. -/
theorem not_mem_intercalate {c separator : Char} (hne : c ≠ separator) {parts : List (List Char)}
    (h : ∀ part ∈ parts, c ∉ part) : c ∉ [separator].intercalate parts := by
  induction parts with
  | nil => simp
  | cons part rest ih =>
    have hpart := h part List.mem_cons_self
    have hrest := ih fun part hpart ↦ h part (List.mem_cons_of_mem _ hpart)
    cases rest with
    | nil => simpa using hpart
    | cons => simp_all

theorem split_intercalate {segments : List String} (hne : segments ≠ [])
    (hslash : ∀ segment ∈ segments, '/' ∉ segment.toList) :
    (Text.split (· == '/') (['/'].intercalate (segments.map String.toList))).map String.ofList =
      segments := by
  rw [Text.split_eq_splitOnP, ← List.splitOn, List.splitOn_intercalate]
  · simp
  · simpa using hslash
  · simpa using hne

/-- An absolute path made of segments falls into these segments. -/
theorem body_ofBody_true {segments : List String} (hne : segments ≠ [])
    (hslash : ∀ segment ∈ segments, '/' ∉ segment.toList) :
    (ofBody true segments).body = segments := by
  rw [body, isAbsolute_ofBody_true, if_pos rfl, toList_ofBody]
  exact split_intercalate hne hslash

/-- So does a relative one, if the first segment is not empty. -/
theorem isAbsolute_ofBody_false {first : String} {rest : List String} (hne : first ≠ "")
    (hslash : '/' ∉ first.toList) : (ofBody false (first :: rest)).isAbsolute = false := by
  rw [isAbsolute, toList_ofBody, decide_eq_false_iff_not]
  obtain ⟨c, cs, hcs⟩ := List.exists_cons_of_ne_nil (fun h ↦ hne (String.toList_eq_nil_iff.1 h))
  have hc : c ≠ '/' := by
    rintro rfl
    exact hslash (by rw [hcs]; exact List.mem_cons_self)
  cases rest <;> simp [hcs, hc]

theorem body_ofBody_false {first : String} {rest : List String} (hne : first ≠ "")
    (hslash : ∀ segment ∈ first :: rest, '/' ∉ segment.toList) :
    (ofBody false (first :: rest)).body = first :: rest := by
  have hrelative : (ofBody false (first :: rest)).isAbsolute = false :=
    isAbsolute_ofBody_false hne (hslash first List.mem_cons_self)
  rw [body, hrelative, if_neg (by decide), toList_ofBody]
  exact split_intercalate (by simp) hslash

/-! ### Joining a relative path -/

/-- Whether what is joined to a path is written right behind it, as it is behind a slash. -/
def isOpen (p : Path) : Bool :=
  p.text.isEmpty || p.text.toList.getLast? = some '/'

/-- The segments of a path that stay before what is joined to it. -/
def before (p : Path) : List String :=
  if p.isOpen then p.body.dropLast else p.body

section Joining

variable {p q : Path} {segment name : String}

/-- The text of a path with a relative one behind it. -/
theorem toList_join (hq : q.isAbsolute = false) :
    (p.join q).text.toList = p.text.toList ++ (if p.isOpen then [] else ['/']) ++ q.text.toList := by
  rw [join, hq, ← isOpen]
  cases p.isOpen <;> simp

theorem split_append_slash (cs rest : List Char) :
    Text.split (· == '/') (cs ++ '/' :: rest) =
      Text.split (· == '/') cs ++ Text.split (· == '/') rest :=
  Text.split_append_cons (· == '/') rfl cs rest

/-- The characters that the segments of a path are cut from. -/
def behindRoot (p : Path) : List Char :=
  if p.isAbsolute then p.text.toList.tail else p.text.toList

theorem body_eq_split (p : Path) :
    p.body = (Text.split (· == '/') p.behindRoot).map String.ofList :=
  rfl

theorem isAbsolute_join (hq : q.isAbsolute = false) : (p.join q).isAbsolute = p.isAbsolute := by
  rcases htext : p.text.toList with - | ⟨c, cs⟩
  · have hempty : p.text.isEmpty = true := by simpa using htext
    rw [isAbsolute] at hq
    rw [isAbsolute, isAbsolute, toList_join hq, isOpen, hempty, htext]
    exact hq
  · rw [isAbsolute, isAbsolute, toList_join hq, htext]
    rfl

/-- What is before an open end: nothing, or characters and a slash. -/
theorem behindRoot_of_isOpen (h : p.isOpen = true) :
    (p.text.toList = [] ∧ p.isAbsolute = false) ∨ p.text.toList = ['/'] ∨
      ∃ kept, p.text.toList ≠ [] ∧ p.behindRoot = kept ++ ['/'] := by
  rw [isOpen, Bool.or_eq_true, String.isEmpty_iff, ← String.toList_eq_nil_iff] at h
  rcases h with hempty | hlast
  · exact Or.inl ⟨hempty, by rw [isAbsolute, hempty]; rfl⟩
  · obtain ⟨around, haround⟩ := List.getLast?_eq_some_iff.1 (of_decide_eq_true hlast)
    rw [behindRoot, haround]
    cases around with
    | nil => exact Or.inr (Or.inl rfl)
    | cons c cs =>
      refine Or.inr (Or.inr ?_)
      split
      · exact ⟨cs, by simp, rfl⟩
      · exact ⟨c :: cs, by simp, rfl⟩

/-- The segments of a path with a relative one behind it. -/
theorem body_join (hq : q.isAbsolute = false) : (p.join q).body = p.before ++ q.body := by
  have hbody : q.body = (Text.split (· == '/') q.text.toList).map String.ofList := by
    rw [body_eq_split, behindRoot, hq]
    rfl
  rw [before, hbody, body_eq_split, body_eq_split, behindRoot, isAbsolute_join hq, toList_join hq]
  cases hopen : p.isOpen with
  | false =>
    have hne : p.text.toList ≠ [] := by
      rw [isOpen, Bool.or_eq_false_iff] at hopen
      simpa using hopen.1
    have hbehind : (if p.isAbsolute = true then (p.text.toList ++ ['/'] ++ q.text.toList).tail
        else p.text.toList ++ ['/'] ++ q.text.toList) = p.behindRoot ++ '/' :: q.text.toList := by
      rw [behindRoot]
      split <;> simp [List.tail_append_of_ne_nil, hne]
    simp only [Bool.false_eq_true, if_false]
    rw [hbehind, split_append_slash, List.map_append]
  | true =>
    simp only [if_true, List.append_nil]
    rcases behindRoot_of_isOpen hopen with ⟨hempty, hrelative⟩ | hroot | ⟨kept, hne, hkept⟩
    · simp [behindRoot, hempty, hrelative, Text.split]
    · have habsolute : p.isAbsolute = true := by rw [isAbsolute, hroot]; rfl
      simp [behindRoot, hroot, habsolute, Text.split]
    · have hbehind : (if p.isAbsolute = true then (p.text.toList ++ q.text.toList).tail
          else p.text.toList ++ q.text.toList) = kept ++ '/' :: q.text.toList := by
        have happend : kept ++ '/' :: q.text.toList = p.behindRoot ++ q.text.toList := by
          rw [hkept, List.append_assoc, List.singleton_append]
        rw [happend, behindRoot]
        split <;> simp [List.tail_append_of_ne_nil, hne]
      rw [hbehind, hkept, split_append_slash, split_append_slash]
      simp [Text.split]

/-! ### Joining a segment -/

theorem isAbsolute_of_no_slash (hslash : '/' ∉ segment.toList) :
    (⟨segment⟩ : Path).isAbsolute = false := by
  rw [isAbsolute, decide_eq_false_iff_not]
  intro h
  exact hslash (List.mem_of_mem_head? h)

theorem body_of_no_slash (hslash : '/' ∉ segment.toList) : (⟨segment⟩ : Path).body = [segment] := by
  rw [body_eq_split, behindRoot, isAbsolute_of_no_slash hslash]
  exact (congrArg (List.map String.ofList) (Text.split_of_not_mem hslash)).trans (by simp)

theorem toList_joinName (hslash : '/' ∉ segment.toList) :
    (p.joinName segment).text.toList =
      p.text.toList ++ (if p.isOpen then [] else ['/']) ++ segment.toList :=
  toList_join (isAbsolute_of_no_slash hslash)

theorem isAbsolute_joinName (hslash : '/' ∉ segment.toList) :
    (p.joinName segment).isAbsolute = p.isAbsolute :=
  isAbsolute_join (isAbsolute_of_no_slash hslash)

/-- The segments of a path with a segment behind it. -/
theorem body_joinName (hslash : '/' ∉ segment.toList) :
    (p.joinName segment).body = p.before ++ [segment] := by
  rw [joinName, body_join (isAbsolute_of_no_slash hslash), body_of_no_slash hslash]

/-- What gives way to a segment behind a path is an empty segment. -/
theorem body_eq_before (p : Path) : p.body = p.before ∨ p.body = p.before ++ [""] := by
  rw [before, body_eq_split]
  cases hopen : p.isOpen with
  | false => exact Or.inl rfl
  | true =>
    refine Or.inr ?_
    rcases behindRoot_of_isOpen hopen with ⟨hempty, hrelative⟩ | hroot | ⟨kept, -, hkept⟩
    · simp [behindRoot, hempty, hrelative, Text.split]
    · have habsolute : p.isAbsolute = true := by rw [isAbsolute, hroot]; rfl
      simp [behindRoot, hroot, habsolute, Text.split]
    · rw [hkept, split_append_slash]
      simp [Text.split]

/-- Behind a segment there is no open end. -/
theorem isOpen_joinName (h : Segment segment) : (p.joinName segment).isOpen = false := by
  obtain ⟨cs, c, hcs⟩ := List.eq_nil_or_concat segment.toList
    |>.resolve_left fun hnil ↦ h.ne_empty (String.toList_eq_nil_iff.1 hnil)
  rw [List.concat_eq_append] at hcs
  have hc : c ≠ '/' := by
    rintro rfl
    exact h.no_slash (by rw [hcs]; simp)
  have htext := toList_joinName (p := p) h.no_slash
  rw [hcs, ← List.append_assoc] at htext
  rw [isOpen, Bool.or_eq_false_iff, ← Bool.not_eq_true, String.isEmpty_iff,
    ← String.toList_eq_nil_iff, htext]
  exact ⟨by simp, by simp [hc]⟩

theorem before_joinName (h : Segment segment) : (p.joinName segment).before = p.before ++ [segment] := by
  rw [before, isOpen_joinName h, if_neg (by decide), body_joinName h.no_slash]

/-- The segments of a path with segments behind it. -/
theorem body_joinNames {segments : List String} (hsegments : ∀ segment ∈ segments, Segment segment)
    (hne : segments ≠ []) : (p.joinNames segments).body = p.before ++ segments := by
  induction segments generalizing p with
  | nil => exact absurd rfl hne
  | cons segment rest ih =>
    have hsegment := hsegments segment List.mem_cons_self
    show ((p.joinName segment).joinNames rest).body = _
    rcases rest with - | ⟨next, rest⟩
    · exact body_joinName hsegment.no_slash
    · rw [ih (fun other hother ↦ hsegments other (List.mem_cons_of_mem _ hother)) (by simp),
        before_joinName hsegment, List.append_assoc, List.singleton_append]

theorem isAbsolute_joinNames {segments : List String}
    (hsegments : ∀ segment ∈ segments, Segment segment) :
    (p.joinNames segments).isAbsolute = p.isAbsolute := by
  induction segments generalizing p with
  | nil => rfl
  | cons segment rest ih =>
    show ((p.joinName segment).joinNames rest).isAbsolute = _
    rw [ih fun other hother ↦ hsegments other (List.mem_cons_of_mem _ hother),
      isAbsolute_joinName (hsegments segment List.mem_cons_self).no_slash]

/-! ### Components of a path with a segment behind it -/

theorem componentsOf_append_segment (hne : segment ≠ "") (hdot : segment ≠ ".") (first : Bool)
    (segments : List String) :
    componentsOf first (segments ++ [segment]) =
      componentsOf first segments ++ [componentOf segment] := by
  have hmatters : matters segment = true := by simp [matters, hne, hdot]
  cases segments with
  | nil => simp [componentsOf, mattersAt, hne, hdot]
  | cons head rest =>
    simp only [List.cons_append, componentsOf, List.filter_append, List.map_append,
      List.filter_cons, hmatters, if_true, List.filter_nil, List.map_cons, List.map_nil]
    split <;> rfl

theorem componentsOf_append_empty (first : Bool) (segments : List String) :
    componentsOf first (segments ++ [""]) = componentsOf first segments := by
  cases segments with
  | nil => rfl
  | cons segment rest => simp [componentsOf, matters]

theorem componentOf_name (hname : SegmentName name) : componentOf name = .name name := by
  rw [componentOf, if_neg hname.ne_dot, if_neg hname.ne_dots]

/-- Ordinary names are components as they stand. -/
theorem componentsOf_names {names : List String} (h : ∀ name ∈ names, SegmentName name) (first : Bool) :
    componentsOf first names = names.map Component.name := by
  have hmatters (name : String) (hname : SegmentName name) : matters name = true := by
    simp [matters, hname.ne_empty, hname.ne_dot]
  cases names with
  | nil => rfl
  | cons name rest =>
    have hname := h name List.mem_cons_self
    have hrest : rest.filter matters = rest :=
      List.filter_eq_self.2 fun name hmem ↦ hmatters name (h name (List.mem_cons_of_mem _ hmem))
    have hmap : (name :: rest).map componentOf = (name :: rest).map Component.name :=
      List.map_congr_left fun name hmem ↦ componentOf_name (h name hmem)
    rw [componentsOf, hrest, if_pos (by simp [mattersAt, hname.ne_empty, hname.ne_dot]), ← List.map_cons, hmap]

/-- A segment behind a path is one component more, unless it is a dot. -/
theorem components_joinSegment (h : Segment segment) (hdot : segment ≠ ".") :
    (p.joinName segment).components = p.components ++ [componentOf segment] := by
  have hbody (first : Bool) : componentsOf first (p.joinName segment).body =
      componentsOf first p.body ++ [componentOf segment] := by
    rw [body_joinName h.no_slash, componentsOf_append_segment h.ne_empty hdot]
    rcases body_eq_before p with hp | hp
    · rw [hp]
    · rw [hp, componentsOf_append_empty]
  rw [components, components, isAbsolute_joinName h.no_slash, hbody, hbody]
  cases p.isAbsolute <;> rfl

/-- A name behind a path is one component more. -/
theorem components_joinName (hname : SegmentName name) :
    (p.joinName name).components = p.components ++ [.name name] := by
  rw [components_joinSegment hname.toSegment hname.ne_dot, componentOf_name hname]

end Joining

end Path

end Rebuild
