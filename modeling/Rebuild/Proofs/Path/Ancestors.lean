import Rebuild.Proofs.Path.Body

/-!
# The folders around a path

The folders around a path are spelled by the first segments of the path. Their texts are beginnings
of its text, so that what holds of all characters of a path, or of how many there are, holds of the
folders around it.
-/

namespace Rebuild.Path

variable {p : Path} {absolute : Bool} {segments rest : List String} {name : String}

/-! ### A path and its segments -/

theorem no_slash_of_mem_split {cs part : List Char} (h : part ∈ Text.split (· == '/') cs) :
    '/' ∉ part := by
  induction cs generalizing part with
  | nil =>
    rw [Text.split, List.mem_singleton] at h
    simp [h]
  | cons c cs ih =>
    rw [Text.split] at h
    split at h
    · rcases List.mem_cons.1 h with rfl | h
      · simp
      · exact ih h
    · rename_i hc
      rcases hsplit : Text.split (· == '/') cs with - | ⟨first, others⟩
      · rw [hsplit] at h
        cases h
      · rw [hsplit, List.modifyHead_cons] at h
        have hall := fun part (hpart : part ∈ first :: others) ↦ ih (hsplit ▸ hpart)
        rcases List.mem_cons.1 h with rfl | h
        · have hne : '/' ≠ c := by
            rintro rfl
            exact hc rfl
          simpa [hne] using hall first List.mem_cons_self
        · exact hall part (List.mem_cons_of_mem _ h)

theorem no_slash_of_mem_body {segment : String} (h : segment ∈ p.body) : '/' ∉ segment.toList := by
  rw [body_eq_split] at h
  obtain ⟨part, hpart, rfl⟩ := List.mem_map.1 h
  rw [String.toList_ofList]
  exact no_slash_of_mem_split hpart

theorem body_ne_nil (p : Path) : p.body ≠ [] := by
  rw [body_eq_split, Text.split_eq_splitOnP]
  simp

theorem body_of_text_eq_empty (h : p.text = "") : p.body = [""] := by
  cases p
  cases h
  rfl

/-- A path is made of its segments. -/
theorem ofBody_body (p : Path) : ofBody p.isAbsolute p.body = p := by
  have htext : (ofBody p.isAbsolute p.body).text.toList = p.text.toList := by
    have hbehind : ['/'].intercalate (p.body.map String.toList) = p.behindRoot := by
      rw [body_eq_split, List.map_map]
      have hid : String.toList ∘ String.ofList = id := by
        funext cs
        exact String.toList_ofList
      rw [hid, List.map_id, Text.split_eq_splitOnP, ← List.splitOn_eq_splitOnP,
        List.intercalate_splitOn]
    rw [toList_ofBody, hbehind, behindRoot]
    cases habsolute : p.isAbsolute with
    | false => rfl
    | true =>
      rw [isAbsolute, decide_eq_true_eq] at habsolute
      obtain ⟨cs, hcs⟩ := List.head?_eq_some_iff.1 habsolute
      rw [hcs]
      rfl
  cases p
  exact congrArg mk (String.toList_inj.1 htext)

theorem eq_of_body {q : Path} (habsolute : p.isAbsolute = q.isAbsolute) (hbody : p.body = q.body) :
    p = q := by
  rw [← ofBody_body p, ← ofBody_body q, habsolute, hbody]

/-! ### The first segments -/

/-- The path of the first segments is a beginning of the path. -/
theorem toList_ofBody_first (h : p.body = segments ++ rest) :
    (ofBody p.isAbsolute segments).text.toList <+: p.text.toList := by
  have hp : p.text.toList = (ofBody p.isAbsolute (segments ++ rest)).text.toList := by
    rw [← h, ofBody_body]
  rw [hp]
  rcases segments with - | ⟨first, others⟩
  · rw [ofBody, ofBody, String.intercalate_nil, String.append_empty, String.toList_append]
    exact List.prefix_append _ _
  · rcases rest with - | ⟨next, rest⟩
    · simp only [List.append_nil, List.prefix_rfl]
    · rw [ofBody, ofBody, String.intercalate_append_of_ne_nil (by simp) (by simp)]
      simp only [String.toList_append, ← List.append_assoc]
      rw [List.append_assoc]
      exact List.prefix_append _ _

theorem isAbsolute_ofBody_first (h : p.body = segments ++ rest) :
    (ofBody p.isAbsolute segments).isAbsolute = p.isAbsolute := by
  cases habsolute : p.isAbsolute with
  | true => exact isAbsolute_ofBody_true _
  | false =>
    obtain ⟨others, hothers⟩ := toList_ofBody_first h
    rw [habsolute] at hothers
    rw [isAbsolute, decide_eq_false_iff_not] at habsolute ⊢
    intro hhead
    obtain ⟨cs, hcs⟩ := List.head?_eq_some_iff.1 hhead
    rw [hcs] at hothers
    rw [← hothers] at habsolute
    exact habsolute rfl

theorem body_ofBody_first (h : p.body = segments ++ rest) (hne : segments ≠ []) :
    (ofBody p.isAbsolute segments).body = segments := by
  have hslash : ∀ segment ∈ segments, '/' ∉ segment.toList := fun segment hsegment ↦
    no_slash_of_mem_body (p := p) (by rw [h]; exact List.mem_append_left _ hsegment)
  have habsolute := isAbsolute_ofBody_first h
  rw [body, habsolute, toList_ofBody]
  cases p.isAbsolute <;> exact split_intercalate hne hslash

/-! ### Cutting -/

/-- What is cut from the end does not matter. -/
theorem exists_dropEnd_append (first : Bool) (segments : List String) :
    ∃ cut, dropEnd first segments ++ cut = segments ∧
      ∀ segment ∈ cut, segment = "" ∨ segment = "." := by
  induction segments generalizing first with
  | nil => exact ⟨[], rfl, by simp⟩
  | cons segment rest ih =>
    obtain ⟨cut, hcut, hall⟩ := ih false
    rw [dropEnd]
    split
    · rename_i hkept
      rw [hkept, List.nil_append] at hcut
      subst hcut
      split
      · exact ⟨cut, rfl, hall⟩
      · refine ⟨segment :: cut, rfl, fun other hother ↦ ?_⟩
        rcases List.mem_cons.1 hother with rfl | hother
        · rename_i hmatters
          by_cases hempty : other = ""
          · exact Or.inl hempty
          · simp only [mattersAt, ne_eq, hempty, not_false_eq_true, decide_true, Bool.true_and,
              Bool.or_eq_true, decide_eq_true_eq, not_or, Decidable.not_not] at hmatters
            exact Or.inr hmatters.2
        · exact hall other hother
    · exact ⟨cut, by rw [List.cons_append, hcut], hall⟩

theorem dropEnd_dropEnd (first : Bool) (segments : List String) :
    dropEnd first (dropEnd first segments) = dropEnd first segments := by
  induction segments generalizing first with
  | nil => rfl
  | cons segment rest ih =>
    have hrest := ih false
    rw [dropEnd]
    split
    · split
      · simp [dropEnd, *]
      · rfl
    · rw [dropEnd, hrest]
      split
      · exact absurd ‹_› ‹_›
      · rfl

/-- An ordinary name at the end matters. -/
theorem dropEnd_append_name (hname : SegmentName name) (first : Bool) (segments : List String) :
    dropEnd first (segments ++ [name]) = segments ++ [name] := by
  induction segments generalizing first with
  | nil => simp [dropEnd, mattersAt, hname.ne_empty, hname.ne_dot]
  | cons segment rest ih =>
    rw [List.cons_append, dropEnd, ih]
    split
    · simp_all
    · rfl

/-- The path without the ordinary name at its end. -/
theorem parent?_of_body (hname : SegmentName name) (h : p.body = segments ++ [name]) :
    p.parent? = some (ofBody p.isAbsolute (dropEnd (!p.isAbsolute) segments)) := by
  rw [parent?, h, dropEnd_append_name hname]
  split
  · simp_all
  · rw [List.dropLast_concat]

theorem ancestorsOf_of_dropEnd_nil (h : dropEnd (!absolute) segments = []) :
    ancestorsOf absolute segments = [ofBody absolute []] := by
  rw [ancestorsOf]
  split
  · rfl
  · simp_all

theorem ancestorsOf_of_dropEnd {kept : List String} (h : dropEnd (!absolute) segments = kept)
    (hne : kept ≠ []) :
    ancestorsOf absolute segments = ofBody absolute kept :: ancestorsOf absolute kept.dropLast := by
  rw [ancestorsOf]
  split
  · simp_all
  · simp_all

theorem ancestorsOf_append_name (hname : SegmentName name) (absolute : Bool)
    (segments : List String) :
    ancestorsOf absolute (segments ++ [name]) =
      ofBody absolute (segments ++ [name]) :: ancestorsOf absolute segments := by
  rw [ancestorsOf_of_dropEnd (dropEnd_append_name hname _ _) (by simp), List.dropLast_concat]

/-- The folders around the path of some first segments. What does not matter at the end of the
segments does not matter here either. -/
theorem ancestors_ofBody (h : p.body = segments ++ rest) :
    (ofBody p.isAbsolute (dropEnd (!p.isAbsolute) segments)).ancestors =
      ancestorsOf p.isAbsolute segments := by
  obtain ⟨others, hothers, -⟩ := exists_dropEnd_append (!p.isAbsolute) segments
  have hbody : p.body = dropEnd (!p.isAbsolute) segments ++ (others ++ rest) := by
    rw [← List.append_assoc, hothers, h]
  rw [ancestors, isAbsolute_ofBody_first hbody]
  by_cases hkept : dropEnd (!p.isAbsolute) segments = []
  · rw [ancestorsOf_of_dropEnd_nil hkept, hkept]
    have hend : (ofBody p.isAbsolute []).body = [""] := by cases p.isAbsolute <;> rfl
    rw [hend, ancestorsOf_of_dropEnd_nil (by simp [dropEnd, mattersAt])]
    rfl
  · rw [body_ofBody_first hbody hkept, ancestorsOf_of_dropEnd (dropEnd_dropEnd _ _) hkept,
      ancestorsOf_of_dropEnd rfl hkept]
    rfl

end Rebuild.Path
