import Rebuild.Proofs.Path.Ancestors

/-!
# Extensions

The extension of a file name is what follows its last dot, and exchanging the extension of a path
keeps the segments before the name and the stem of the name. One stem cannot stand before another
extension: where the stem is a single dot, cutting the extension off leaves a double dot, which is no
file name any more.
-/

namespace Rebuild.Path

variable {p q : Path} {segments : List String} {name stem extension segment : String}

/-! ### Cutting a name -/

theorem splitName_of_dot (hstem : stem ≠ "") (hdot : '.' ∉ extension.toList) :
    splitName (stem ++ "." ++ extension) = (stem, some extension) := by
  have hall : ∀ c ∈ extension.toList.reverse, decide (c ≠ '.') = true := by
    intro c hc
    rw [decide_eq_true_eq]
    rintro rfl
    exact hdot (List.mem_reverse.1 hc)
  have hcs : (stem ++ "." ++ extension).toList.reverse =
      extension.toList.reverse ++ '.' :: stem.toList.reverse := by
    simp
  have hafter : (extension.toList.reverse ++ '.' :: stem.toList.reverse).takeWhile (· ≠ '.') =
      extension.toList.reverse := by
    rw [List.takeWhile_append_of_pos hall, List.takeWhile_cons_of_neg (by simp), List.append_nil]
  have hfirst : stem.toList.reverse.isEmpty = false := by
    simpa using hstem
  rw [splitName, hcs]
  simp only [hafter, List.drop_left, hfirst]
  simp

theorem splitName_of_no_dot (hdot : '.' ∉ name.toList) : splitName name = (name, none) := by
  have hall : ∀ c ∈ name.toList.reverse, decide (c ≠ '.') = true := by
    intro c hc
    rw [decide_eq_true_eq]
    rintro rfl
    exact hdot (List.mem_reverse.1 hc)
  have hafter : name.toList.reverse.takeWhile (· ≠ '.') = name.toList.reverse := by
    simpa using @List.takeWhile_append_of_pos _ _ _ [] hall
  rw [splitName]
  simp only [hafter, List.drop_length]

/-- A dot at the beginning does not count. -/
theorem splitName_of_first_dot (hdot : '.' ∉ extension.toList) :
    splitName ("." ++ extension) = ("." ++ extension, none) := by
  have hall : ∀ c ∈ extension.toList.reverse, decide (c ≠ '.') = true := by
    intro c hc
    rw [decide_eq_true_eq]
    rintro rfl
    exact hdot (List.mem_reverse.1 hc)
  have hcs : ("." ++ extension).toList.reverse = extension.toList.reverse ++ ['.'] := by
    simp
  have hafter : (extension.toList.reverse ++ ['.']).takeWhile (· ≠ '.') =
      extension.toList.reverse := by
    rw [List.takeWhile_append_of_pos hall, List.takeWhile_cons_of_neg (by simp), List.append_nil]
  rw [splitName, hcs]
  simp only [hafter, List.drop_left]
  rfl

/-- A name has no extension, or it is a stem, a dot and an extension. -/
theorem splitName_cases (name : String) :
    splitName name = (name, none) ∨
      ∃ stem extension, stem ≠ "" ∧ '.' ∉ extension.toList ∧ name = stem ++ "." ++ extension := by
  by_cases hdot : '.' ∈ name.toList
  · obtain ⟨after, before, hsplit, hafter⟩ :=
      List.eq_append_cons_of_mem (List.mem_reverse.2 hdot)
    have hname : name = String.ofList before.reverse ++ "." ++ String.ofList after.reverse := by
      rw [← String.toList_inj, ← List.reverse_inj, hsplit]
      simp
    have hextension : '.' ∉ (String.ofList after.reverse).toList := by simpa using hafter
    by_cases hempty : before = []
    · refine Or.inl ?_
      rw [hname, hempty]
      exact splitName_of_first_dot hextension
    · exact Or.inr ⟨_, _, by simpa using hempty, hextension, hname⟩
  · exact Or.inl (splitName_of_no_dot hdot)

theorem stem_ne_empty (hname : name ≠ "") : (splitName name).1 ≠ "" := by
  rcases splitName_cases name with h | ⟨stem, extension, hstem, hdot, rfl⟩
  · rwa [h]
  · rwa [splitName_of_dot hstem hdot]

theorem no_slash_stem (hslash : '/' ∉ name.toList) : '/' ∉ (splitName name).1.toList := by
  rcases splitName_cases name with h | ⟨stem, extension, hstem, hdot, rfl⟩
  · rwa [h]
  · rw [splitName_of_dot hstem hdot]
    intro h
    exact hslash (by simp [h])

/-! ### The names of a path -/

theorem exists_of_mem_componentsOf {first : Bool} {component : Component}
    (h : component ∈ componentsOf first segments) :
    ∃ segment ∈ segments, segment ≠ "" ∧ component = componentOf segment := by
  rcases segments with - | ⟨head, rest⟩
  · cases h
  have hlater (hmem : component ∈ (rest.filter matters).map componentOf) :
      ∃ segment ∈ head :: rest, segment ≠ "" ∧ component = componentOf segment := by
    obtain ⟨segment, hsegment, rfl⟩ := List.mem_map.1 hmem
    obtain ⟨hrest, hmatters⟩ := List.mem_filter.1 hsegment
    refine ⟨segment, List.mem_cons_of_mem _ hrest, ?_, rfl⟩
    rintro rfl
    cases hmatters
  rw [componentsOf] at h
  split at h
  · rename_i hmatters
    rcases List.mem_cons.1 h with rfl | hmem
    · refine ⟨head, List.mem_cons_self, ?_, rfl⟩
      rintro rfl
      cases hmatters
    · exact hlater hmem
  · exact hlater h

theorem segmentName_of_mem_components (h : .name name ∈ p.components) : SegmentName name := by
  have hfound : ∃ segment ∈ p.body, segment ≠ "" ∧ .name name = componentOf segment := by
    rw [components] at h
    split at h
    · exact exists_of_mem_componentsOf (by simpa using h)
    · exact exists_of_mem_componentsOf h
  obtain ⟨segment, hmem, hne, hcomponent⟩ := hfound
  rw [componentOf] at hcomponent
  split at hcomponent
  · cases hcomponent
  split at hcomponent
  · cases hcomponent
  cases hcomponent
  exact ⟨⟨hne, no_slash_of_mem_body hmem⟩, ‹_›, ‹_›⟩

/-- The names of a path can be segments. -/
theorem segmentName_of_mem_names (h : name ∈ p.names) : SegmentName name := by
  obtain ⟨component, hcomponent, hname⟩ := List.mem_filterMap.1 h
  split at hname
  · cases hname
    exact segmentName_of_mem_components hcomponent
  · cases hname

/-- Names, the last one without its extension. -/
def bare (names : List String) : List String :=
  names.dropLast ++ (names.getLast?.map fun name ↦ (splitName name).1).toList

theorem bare_concat (names : List String) (name : String) :
    bare (names ++ [name]) = names ++ [(splitName name).1] := by
  rw [bare, List.dropLast_concat, List.getLast?_concat]
  rfl

theorem bare_append (names : List String) {others : List String} (hne : others ≠ []) :
    bare (names ++ others) = names ++ bare others := by
  obtain ⟨around, name, rfl⟩ := List.eq_nil_or_concat others |>.resolve_left hne
  rw [List.concat_eq_append, ← List.append_assoc, bare_concat, bare_concat, List.append_assoc]

@[simp]
theorem length_bare (names : List String) : (bare names).length = names.length := by
  rcases List.eq_nil_or_concat names with rfl | ⟨around, name, rfl⟩
  · rfl
  · rw [List.concat_eq_append, bare_concat]
    simp

/-- The names of a path, the last one without its extension. -/
def bareNames (p : Path) : List String :=
  bare p.names

/-! ### Another last segment -/

/-- A relative path of more than one segment does not begin with an empty one. -/
theorem head_ne_empty_of_relative {first : String} {rest : List String}
    (hrelative : p.isAbsolute = false) (h : p.body = first :: rest) (hne : rest ≠ []) :
    first ≠ "" := by
  rintro rfl
  obtain ⟨next, others, rfl⟩ := List.exists_cons_of_ne_nil hne
  have hp := ofBody_body p
  rw [hrelative, h] at hp
  rw [← hp, isAbsolute, toList_ofBody] at hrelative
  simp at hrelative

/-- The last segment of a path can be exchanged for another. -/
theorem isAbsolute_ofBody_last (h : p.body = segments ++ [name]) (hsegment : Segment segment) :
    (ofBody p.isAbsolute (segments ++ [segment])).isAbsolute = p.isAbsolute := by
  cases habsolute : p.isAbsolute with
  | true => exact isAbsolute_ofBody_true _
  | false =>
    rcases segments with - | ⟨first, rest⟩
    · exact isAbsolute_ofBody_false hsegment.ne_empty hsegment.no_slash
    · have hfirst := head_ne_empty_of_relative habsolute h (by simp)
      exact isAbsolute_ofBody_false hfirst (no_slash_of_mem_body (p := p) (by rw [h]; simp))

theorem body_ofBody_last (h : p.body = segments ++ [name]) (hsegment : Segment segment) :
    (ofBody p.isAbsolute (segments ++ [segment])).body = segments ++ [segment] := by
  have hslash : ∀ other ∈ segments ++ [segment], '/' ∉ other.toList := by
    intro other hother
    rcases List.mem_append.1 hother with hother | hother
    · exact no_slash_of_mem_body (p := p) (by rw [h]; exact List.mem_append_left _ hother)
    · rw [List.mem_singleton.1 hother]
      exact hsegment.no_slash
  rw [body, isAbsolute_ofBody_last h hsegment, toList_ofBody]
  cases p.isAbsolute <;> exact split_intercalate (by simp) hslash

theorem getLast?_components (hne : segment ≠ "") (hdot : segment ≠ ".")
    (h : p.body = segments ++ [segment]) :
    p.components.getLast? = some (componentOf segment) := by
  rw [components, h, componentsOf_append_segment hne hdot, componentsOf_append_segment hne hdot]
  cases p.isAbsolute
  · exact List.getLast?_concat
  · rw [if_pos rfl, ← List.cons_append]
    exact List.getLast?_concat

theorem fileName?_of_body (hname : SegmentName name) (h : p.body = segments ++ [name]) :
    p.fileName? = some name := by
  rw [fileName?, getLast?_components hname.ne_empty hname.ne_dot h, componentOf_name hname]

theorem fileName?_of_dots (h : p.body = segments ++ [".."]) : p.fileName? = none := by
  rw [fileName?, getLast?_components (by decide) (by decide) h]
  rfl

/-- The text of a path is the text of the segments up to some point in the last one, and what is
left of that one. -/
theorem toList_ofBody_last (absolute : Bool) (segments : List String) (segment rest : String) :
    (ofBody absolute (segments ++ [segment ++ rest])).text.toList =
      (ofBody absolute (segments ++ [segment])).text.toList ++ rest.toList := by
  have hlast : String.intercalate "/" (segments ++ [segment ++ rest]) =
      String.intercalate "/" (segments ++ [segment]) ++ rest := by
    rcases segments with - | ⟨first, others⟩
    · simp
    · rw [String.intercalate_append_of_ne_nil (by simp) (by simp),
        String.intercalate_append_of_ne_nil (by simp) (by simp)]
      simp [String.append_assoc]
  rw [ofBody, ofBody, hlast]
  simp

/-! ### Another extension -/

/-- What a file name becomes when its extension is exchanged. -/
def renamed (stem extension : String) : String :=
  if stem = "." then ".." else stem ++ "." ++ extension

theorem segment_renamed (hstem : '/' ∉ stem.toList) (hextension : Segment extension) :
    Segment (renamed stem extension) := by
  rw [renamed]
  split
  · exact ⟨by decide, by decide⟩
  · exact ⟨by simp, by simp [hstem, hextension.no_slash]⟩

/-- What a stem and an extension make up is an ordinary name, unless the stem is a dot. -/
theorem segmentName_renamed (hstem : Segment stem) (hdot : stem ≠ ".") (hextension : Segment extension) :
    SegmentName (renamed stem extension) := by
  have hstem' := mt String.length_eq_zero_iff.1 hstem.ne_empty
  have hextension' := mt String.length_eq_zero_iff.1 hextension.ne_empty
  have hlength : 2 < (renamed stem extension).length := by
    rw [renamed, if_neg hdot, String.length_append, String.length_append, show ".".length = 1 from rfl]
    omega
  refine ⟨segment_renamed hstem.no_slash hextension, fun heq ↦ ?_, fun heq ↦ ?_⟩ <;>
    exact absurd (heq ▸ hlength) (by decide)

/-- Different stems are kept apart. -/
theorem renamed_inj {other : String} (hstem : stem ≠ "") (hother : other ≠ "")
    (hextension : extension ≠ "") :
    renamed stem extension = renamed other extension ↔ stem = other := by
  have hne {left : String} (hleft : left ≠ "") : ".." ≠ left ++ "." ++ extension := by
    intro heq
    have hlength := congrArg (fun name : String ↦ name.toList.length) heq
    have hfirst := List.length_pos_iff.2 fun h ↦ hleft (String.toList_eq_nil_iff.1 h)
    have hlast := List.length_pos_iff.2 fun h ↦ hextension (String.toList_eq_nil_iff.1 h)
    have hdots : "..".toList.length = 2 := rfl
    have hdot : ".".toList.length = 1 := rfl
    simp only [String.toList_append, List.length_append, hdots, hdot] at hlength
    omega
  refine ⟨fun heq ↦ ?_, fun heq ↦ by rw [heq]⟩
  rw [renamed, renamed] at heq
  split at heq
  · split at heq
    · simp_all
    · exact absurd heq (hne hother)
  · split at heq
    · exact absurd heq.symm (hne hstem)
    · rw [String.append_assoc, String.append_assoc] at heq
      exact (String.append_left_inj _).1 heq

/-- What a file name becomes when its extension is exchanged for one that may be empty. -/
def exchanged (stem extension : String) : String :=
  if extension = "" then if stem = "." then ".." else stem else renamed stem extension

/-- Setting the extension of a path exchanges its last segment. -/
theorem setExtension_of_body (hname : SegmentName name) (h : p.body = segments ++ [name]) :
    p.setExtension extension = ofBody p.isAbsolute (segments ++
      [if extension.isEmpty then (splitName name).1 else (splitName name).1 ++ "." ++ extension]) := by
  rw [setExtension, fileStem?, fileName?_of_body hname h, h, dropEnd_append_name hname,
    List.dropLast_concat]
  rfl

/-- A present extension is cut off the text before the new one is set. -/
theorem withExtension_of_present {present : String} (hstem : stem ≠ "") (hdot : '.' ∉ present.toList)
    (hname : SegmentName (stem ++ "." ++ present)) (h : p.body = segments ++ [stem ++ "." ++ present]) :
    p.withExtension extension =
      (ofBody p.isAbsolute (segments ++ [stem ++ "."])).setExtension extension := by
  have htext : p.text.toList =
      (ofBody p.isAbsolute (segments ++ [stem ++ "."])).text.toList ++ present.toList := by
    rw [← toList_ofBody_last, ← h, ofBody_body]
  have hlength : (ofBody p.isAbsolute (segments ++ [stem ++ "."])).text.toList.length =
      p.text.toList.length - present.length := by
    rw [htext, List.length_append, String.length_toList, String.length_toList, Nat.add_sub_cancel]
  rw [withExtension, extension?, fileName?_of_body hname h, Option.bind_some, splitName_of_dot hstem hdot]
  simp only
  rw [← hlength, htext, List.take_left, String.ofList_toList]

/-- Exchanging the extension of a path exchanges its last segment. -/
theorem withExtension_eq (hname : SegmentName name) (h : p.body = segments ++ [name]) :
    p.withExtension extension =
      ofBody p.isAbsolute (segments ++ [exchanged (splitName name).1 extension]) := by
  rcases splitName_cases name with hnone | ⟨stem, present, hstem, hdot, rfl⟩
  · rw [withExtension, extension?, fileName?_of_body hname h, Option.bind_some, hnone, exchanged, renamed,
      if_neg hname.ne_dot, if_neg hname.ne_dot]
    have hset : p.setExtension extension = _ := setExtension_of_body hname h
    simpa [hnone] using hset
  · rw [withExtension_of_present hstem hdot hname h, splitName_of_dot hstem hdot]
    have hslash : '/' ∉ (stem ++ ".").toList := by
      have hall := hname.no_slash
      rw [String.toList_append] at hall
      exact fun hmem ↦ hall (List.mem_append_left _ hmem)
    have hsegment : Segment (stem ++ ".") := ⟨by simp, hslash⟩
    have hbody := body_ofBody_last h hsegment
    have habsolute := isAbsolute_ofBody_last h hsegment
    by_cases hdots : stem = "."
    · -- what is left of the name is a double dot, which has no extension
      subst hdots
      rw [setExtension, fileStem?, fileName?_of_dots hbody, exchanged, renamed, if_pos rfl, if_pos rfl,
        ite_self]
      rfl
    · have hrest : SegmentName (stem ++ ".") := by
        refine ⟨hsegment, fun heq ↦ hstem ?_, fun heq ↦ hdots ?_⟩
        · exact (String.append_left_inj ".").1 (heq.trans String.empty_append.symm)
        · exact (String.append_left_inj ".").1 heq
      have hsplit : splitName (stem ++ ".") = (stem, some "") := by
        simpa using @splitName_of_dot stem "" hstem (by decide)
      rw [setExtension_of_body hrest hbody, habsolute, hsplit, exchanged, renamed, if_neg hdots,
        if_neg hdots]
      simp

theorem exchanged_of_ne_empty (hextension : extension ≠ "") :
    exchanged stem extension = renamed stem extension :=
  if_neg hextension

theorem segment_exchanged (hstem : Segment stem) (hslash : '/' ∉ extension.toList) :
    Segment (exchanged stem extension) := by
  rw [exchanged]
  split
  · split
    · exact ⟨by decide, by decide⟩
    · exact hstem
  · exact segment_renamed hstem.no_slash ⟨‹_›, hslash⟩

theorem exchanged_ne_dot (hstem : stem ≠ "") (extension : String) : exchanged stem extension ≠ "." := by
  rw [exchanged, renamed]
  split
  · split
    · decide
    · assumption
  · split
    · decide
    · intro heq
      have hlength := congrArg String.length heq
      have hdot : ".".length = 1 := rfl
      rw [String.length_append, String.length_append, hdot] at hlength
      exact hstem (String.length_eq_zero_iff.1 (by omega))

/-- Different stems are kept apart, but for a dot and a double dot when there is no extension. -/
theorem exchanged_inj {other : String} (hstem : stem ≠ "") (hother : other ≠ "") (extension : String) :
    exchanged stem extension = exchanged other extension ↔ stem = other ∨
      extension = "" ∧ stem ∈ [".", ".."] ∧ other ∈ [".", ".."] := by
  by_cases hextension : extension = ""
  · subst hextension
    by_cases hdot : stem = "." <;> by_cases hdot' : other = "." <;>
      simp [exchanged, hdot, hdot', eq_comm]
    rintro rfl rfl
    rfl
  · rw [exchanged_of_ne_empty hextension, exchanged_of_ne_empty hextension,
      renamed_inj hstem hother hextension]
    simp [hextension]

theorem withExtension_of_body (hname : SegmentName name) (h : p.body = segments ++ [name])
    (hextension : extension ≠ "") :
    p.withExtension extension =
      ofBody p.isAbsolute (segments ++ [renamed (splitName name).1 extension]) := by
  rw [withExtension_eq hname h, exchanged_of_ne_empty hextension]

theorem isAbsolute_withExtension (hname : SegmentName name) (h : p.body = segments ++ [name])
    (hextension : Segment extension) : (p.withExtension extension).isAbsolute = p.isAbsolute := by
  rw [withExtension_of_body hname h hextension.ne_empty]
  exact isAbsolute_ofBody_last h (segment_renamed (no_slash_stem hname.no_slash) hextension)

theorem body_withExtension (hname : SegmentName name) (h : p.body = segments ++ [name])
    (hextension : Segment extension) :
    (p.withExtension extension).body =
      segments ++ [renamed (splitName name).1 extension] := by
  rw [withExtension_of_body hname h hextension.ne_empty]
  exact body_ofBody_last h (segment_renamed (no_slash_stem hname.no_slash) hextension)

/-- A path that does not end with a name keeps its extension. -/
theorem withExtension_of_dots (h : p.body = segments ++ [".."]) :
    p.withExtension extension = p := by
  have hnone := fileName?_of_dots h
  rw [withExtension, extension?, hnone, Option.bind_none, setExtension, fileStem?, hnone,
    Option.map_none]

/-! ### A dot at the end -/

theorem dropEnd_append_dot (first : Bool) (hne : segments ≠ []) :
    dropEnd first (segments ++ ["."]) = dropEnd first segments := by
  induction segments generalizing first with
  | nil => exact absurd rfl hne
  | cons segment rest ih =>
    rw [List.cons_append, dropEnd, dropEnd]
    rcases rest with - | ⟨next, rest⟩
    · rfl
    · rw [ih false (by simp)]

theorem componentsOf_append_dot (first : Bool) (hne : segments ≠ []) :
    componentsOf first (segments ++ ["."]) = componentsOf first segments := by
  obtain ⟨head, rest, rfl⟩ := List.exists_cons_of_ne_nil hne
  simp [componentsOf, matters]

/-- A dot at the end of a path does not matter to the extension. -/
theorem body_withExtension_of_dot (hname : SegmentName name) (hdot : '.' ∉ name.toList)
    (h : p.body = segments ++ [name] ++ ["."]) (hextension : Segment extension) :
    (p.withExtension extension).body = segments ++ [renamed name extension] := by
  let around := ofBody p.isAbsolute (segments ++ [name])
  have hbody : around.body = segments ++ [name] := body_ofBody_first h (by simp)
  have habsolute : around.isAbsolute = p.isAbsolute := isAbsolute_ofBody_first h
  have hcomponents : p.components = around.components := by
    rw [components, components, habsolute, hbody, h, componentsOf_append_dot _ (by simp),
      componentsOf_append_dot _ (by simp)]
  have hfile : p.fileName? = some name := by
    rw [← fileName?_of_body hname hbody, fileName?, fileName?, hcomponents]
  have hset : p.setExtension extension = around.setExtension extension := by
    rw [setExtension, setExtension, fileStem?, fileStem?, hfile, fileName?_of_body hname hbody,
      habsolute, hbody, h, dropEnd_append_dot _ (by simp)]
    rfl
  have hwith : p.withExtension extension = around.withExtension extension := by
    rw [withExtension, withExtension, extension?, extension?, hfile,
      fileName?_of_body hname hbody, Option.bind_some, splitName_of_no_dot hdot]
    exact hset
  rw [hwith, body_withExtension hname hbody hextension, splitName_of_no_dot hdot]

end Rebuild.Path
