import Mathlib.Data.List.TakeWhile
import Rebuild.Proofs.Include.Closure

/-!
# Directives and where they lead

`Directive` is the shape of a line that includes a name, said without any reading of the line: the parts that
such a line is made of. A line has this shape for one name at most, the one that reading it gives
(`parse?_eq_some_iff`).

`LeadsTo` adds where the name is found. Scanning a file gives, line by line, the location to which the line leads,
and nothing for a line that leads nowhere (`found_iff`).
-/

namespace Rebuild.Include

variable {s : FileStore} {folder : Path} {folders : List Path} {line name cs behind : List Char}
  {lines : List (List Char)} {l : Location} {found : List Location} {closing : Char}

/-- The marks around an included name, the opening one and the closing one. -/
inductive Marks : Char → Char → Prop
  | quotes : Marks '"' '"'
  | brackets : Marks '<' '>'

/-- A line includes a name: blanks, the word, any number of spaces, and the name between marks stand at its
beginning, and anything may follow. The name is not empty and ends at the first closing mark. -/
def Directive (line name : List Char) : Prop :=
  ∃ blanks spaces opening closing behind, (∀ c ∈ blanks, Text.isBlank c = true) ∧ Marks opening closing ∧
    name ≠ [] ∧ closing ∉ name ∧
    line = blanks ++ ("#include".toList ++ (List.replicate spaces ' ' ++ opening :: (name ++ closing :: behind)))

/-- A line leads to a location: it includes a name, and of the paths that the name stands for, in the folder of
the including file and in the folders in their order, the first one that leads anywhere leads there. -/
def LeadsTo (s : FileStore) (folder : Path) (folders : List Path) (line : List Char) (l : Location) : Prop :=
  ∃ name p, Directive line name ∧
    FirstExisting s ((folder :: folders).map (·.join ⟨String.ofList name⟩)) p ∧ s.canonical? p = some l

/-- What is found on lines, one after the other: where a line leads, if it leads anywhere. -/
inductive Found (s : FileStore) (folder : Path) (folders : List Path) : List (List Char) → List Location → Prop
  | nil : Found s folder folders [] []
  | hit {line : List Char} {lines : List (List Char)} {l : Location} {found : List Location}
    (hline : LeadsTo s folder folders line l) (hlines : Found s folder folders lines found) :
    Found s folder folders (line :: lines) (l :: found)
  | miss {line : List Char} {lines : List (List Char)} {found : List Location}
    (hline : ∀ l, ¬LeadsTo s folder folders line l) (hlines : Found s folder folders lines found) :
    Found s folder folders (line :: lines) found

/-! ### Reading a line -/

theorem delimited?_eq_some_iff : delimited? closing cs = some name ↔
    name ≠ [] ∧ closing ∉ name ∧ ∃ behind, cs = name ++ closing :: behind := by
  constructor
  · intro h
    rw [delimited?] at h
    split at h
    next hname =>
      obtain rfl := Option.some.inj h
      obtain ⟨hne, hlength⟩ := hname
      refine ⟨hne, fun hmem ↦ by simpa using List.mem_takeWhile_imp hmem, ?_⟩
      have hcs := List.takeWhile_append_dropWhile (p := (· ≠ closing)) (l := cs)
      rcases hrest : cs.dropWhile (· ≠ closing) with - | ⟨c, behind⟩
      · -- without a closing mark all of the text would be the name
        rw [hrest, List.append_nil] at hcs
        rw [hcs] at hlength
        exact absurd hlength (Nat.lt_irrefl _)
      · have hhead := List.head?_dropWhile_not (· ≠ closing) cs
        rw [hrest] at hhead hcs
        obtain rfl : c = closing := by simpa using hhead
        exact ⟨behind, hcs.symm⟩
    next => cases h
  · rintro ⟨hne, hclosing, behind, rfl⟩
    have htake : (name ++ closing :: behind).takeWhile (· ≠ closing) = name := by
      rw [List.takeWhile_append_of_pos fun c hc ↦ decide_eq_true (ne_of_mem_of_not_mem hc hclosing),
        List.takeWhile_cons_of_neg (by simp), List.append_nil]
    rw [delimited?, htake, if_pos ⟨hne, by simp⟩]

theorem dropWhile_append_cons {α : Type} {p : α → Bool} {xs : List α} {x : α} (hxs : ∀ y ∈ xs, p y = true)
    (hx : p x = false) (ys : List α) : (xs ++ x :: ys).dropWhile p = x :: ys := by
  rw [List.dropWhile_append_of_pos hxs, List.dropWhile_cons_of_neg (by simp [hx])]

/-- Reading a line that begins with blanks, the word and spaces comes to what is behind them. -/
theorem parse?_of_parts {blanks : List Char} (hblanks : ∀ c ∈ blanks, Text.isBlank c = true) (spaces : Nat)
    {opening closing : Char} (hmarks : Marks opening closing) (cs : List Char) :
    parse? (blanks ++ ("#include".toList ++ (List.replicate spaces ' ' ++ opening :: cs))) =
      delimited? closing cs := by
  have hword :
      (blanks ++ ("#include".toList ++ (List.replicate spaces ' ' ++ opening :: cs))).dropWhile Text.isBlank =
        Include.opening ++ (List.replicate spaces ' ' ++ opening :: cs) :=
    dropWhile_append_cons hblanks (by decide) _
  have hspace : opening ≠ ' ' := by cases hmarks <;> decide
  have hrest : (List.replicate spaces ' ' ++ opening :: cs).dropWhile (· = ' ') = opening :: cs :=
    dropWhile_append_cons (p := (· = ' ')) (fun _ hc ↦ decide_eq_true (List.eq_of_mem_replicate hc))
      (decide_eq_false hspace) _
  rw [parse?, hword, if_pos (List.isPrefixOf_iff_prefix.2 (List.prefix_append _ _)), List.drop_left, hrest]
  cases hmarks <;> rfl

/-- A line that can be read begins with blanks, the word, spaces and an opening mark. -/
theorem exists_parts_of_parse? (h : (parse? line).isSome) :
    ∃ blanks spaces opening closing cs, (∀ c ∈ blanks, Text.isBlank c = true) ∧ Marks opening closing ∧
      line = blanks ++ ("#include".toList ++ (List.replicate spaces ' ' ++ opening :: cs)) := by
  have hspaces (cs : List Char) : cs.takeWhile (· = ' ') = List.replicate (cs.takeWhile (· = ' ')).length ' ' :=
    List.eq_replicate_of_mem fun c hc ↦ by simpa using List.mem_takeWhile_imp hc
  have hline := List.takeWhile_append_dropWhile (p := Text.isBlank) (l := line)
  rw [parse?] at h
  split at h
  next hword =>
    obtain ⟨after, hafter⟩ := List.isPrefixOf_iff_prefix.1 hword
    have hrest := List.takeWhile_append_dropWhile (p := (· = ' ')) (l := after)
    rw [← hafter, List.drop_left] at h
    have hparts (opening : Char) (cs : List Char) (hcs : after.dropWhile (· = ' ') = opening :: cs) :
        line = line.takeWhile Text.isBlank ++ ("#include".toList ++
          (List.replicate (after.takeWhile (· = ' ')).length ' ' ++ opening :: cs)) := by
      rw [← hspaces, ← hcs, hrest]
      show line = line.takeWhile Text.isBlank ++ (Include.opening ++ after)
      rw [hafter, hline]
    split at h
    next cs hcs =>
      exact ⟨_, _, _, _, cs, fun _ ↦ List.mem_takeWhile_imp, .quotes, hparts _ cs hcs⟩
    next cs hcs =>
      exact ⟨_, _, _, _, cs, fun _ ↦ List.mem_takeWhile_imp, .brackets, hparts _ cs hcs⟩
    next => cases h
  next => cases h

/-- Reading a line gives the name that it includes, and nothing if it includes none. -/
theorem parse?_eq_some_iff : parse? line = some name ↔ Directive line name := by
  constructor
  · intro h
    obtain ⟨blanks, spaces, opening, closing, cs, hblanks, hmarks, rfl⟩ :=
      exists_parts_of_parse? (Option.isSome_of_eq_some h)
    rw [parse?_of_parts hblanks spaces hmarks, delimited?_eq_some_iff] at h
    obtain ⟨hne, hclosing, behind, rfl⟩ := h
    exact ⟨blanks, spaces, opening, closing, behind, hblanks, hmarks, hne, hclosing, rfl⟩
  · rintro ⟨blanks, spaces, opening, closing, behind, hblanks, hmarks, hne, hclosing, rfl⟩
    rw [parse?_of_parts hblanks spaces hmarks, delimited?_eq_some_iff]
    exact ⟨hne, hclosing, behind, rfl⟩

/-! ### Scanning lines -/

/-- Where a line leads, as scanning finds it. -/
def lead? (s : FileStore) (folder : Path) (folders : List Path) (line : List Char) : Option Location :=
  ((parse? line).map fun name ↦ ⟨String.ofList name⟩).bind (resolve? s folder folders)

theorem lead?_eq_some_iff : lead? s folder folders line = some l ↔ LeadsTo s folder folders line l := by
  rw [lead?, Option.bind_eq_some_iff]
  constructor
  · rintro ⟨path, hpath, hresolve⟩
    obtain ⟨name, hname, rfl⟩ := Option.map_eq_some_iff.1 hpath
    obtain ⟨p, hfirst, hplace⟩ := resolve?_eq_some_iff.1 hresolve
    exact ⟨name, p, parse?_eq_some_iff.1 hname, hfirst, hplace⟩
  · rintro ⟨name, p, hname, hfirst, hplace⟩
    exact ⟨⟨String.ofList name⟩, by rw [parse?_eq_some_iff.2 hname]; rfl,
      resolve?_eq_some_iff.2 ⟨p, hfirst, hplace⟩⟩

theorem scan_eq_filterMap {text : String} (h : s.readText l.path = .ok text) :
    scan s folders l = (Text.lines text.toList).filterMap (lead? s l.parent.path folders) := by
  rw [scan, h]
  dsimp only
  rw [namesIn, List.filterMap_filterMap]
  rfl

theorem scan_of_not_text (h : ∀ text, s.readText l.path ≠ .ok text) : scan s folders l = [] := by
  rw [scan]
  split
  next text htext => exact absurd htext (h text)
  next => rfl

/-- What is found on lines is where they lead, in their order and as often as they do. -/
theorem found_iff : Found s folder folders lines found ↔ lines.filterMap (lead? s folder folders) = found := by
  constructor
  · intro h
    induction h with
    | nil => rfl
    | hit hline _ ih => rw [List.filterMap_cons_some (lead?_eq_some_iff.2 hline), ih]
    | @miss line _ _ hline _ ih =>
      have hnone : lead? s folder folders line = none :=
        Option.eq_none_iff_forall_ne_some.2 fun l hl ↦ hline l (lead?_eq_some_iff.1 hl)
      rw [List.filterMap_cons_none hnone, ih]
  · rintro rfl
    induction lines with
    | nil => exact .nil
    | cons line lines ih =>
      cases hlead : lead? s folder folders line with
      | none =>
        rw [List.filterMap_cons_none hlead]
        refine .miss (fun l hl ↦ ?_) ih
        rw [lead?_eq_some_iff.2 hl] at hlead
        cases hlead
      | some l =>
        rw [List.filterMap_cons_some hlead]
        exact .hit (lead?_eq_some_iff.1 hlead) ih

/-- Reading a line gives a name exactly if the line is a directive that includes this name. Scanning a file that
is text gives exactly the locations to which its lines lead, in their order and with repetitions, where a name is
looked for in the folder of the file first and then in the folders, the earlier ones first. A file that is not
text includes nothing. -/
theorem directives_recognised :
    (∀ line name, parse? line = some name ↔ Directive line name) ∧
    (∀ s folders l text, s.readText l.path = .ok text → ∀ found,
      scan s folders l = found ↔ Found s l.parent.path folders (Text.lines text.toList) found) ∧
    ∀ s folders l, (∀ text, s.readText l.path ≠ .ok text) → scan s folders l = [] := by
  refine ⟨fun _ _ ↦ parse?_eq_some_iff, fun s folders l text htext found ↦ ?_, fun _ _ _ ↦ scan_of_not_text⟩
  rw [scan_eq_filterMap htext, found_iff]

/-- A source whose lines end in several ways, with a header that is beside it and in the folder too. -/
def shadowedHeader : FileStore where
  entries := [(.root, .folder 0), (⟨["src"]⟩, .folder 0), (⟨["inc"]⟩, .folder 0),
    (⟨["src", "a.c"]⟩, .file (Text.Utf8.encode
      "#include \"x.h\"\r\n \t#include  <y.h> // y\n#include\"x.h\"\n#include <gone.h>\n#include \"x.h") false 10),
    (⟨["src", "x.h"]⟩, .file (Text.Utf8.encode "") false 10),
    (⟨["inc", "x.h"]⟩, .file (Text.Utf8.encode "") false 10),
    (⟨["inc", "y.h"]⟩, .file (Text.Utf8.encode "") false 10)]
  clock := 20

/-- The header beside the source is found twice, between the two the one in the folder, and the last two lines
lead nowhere. -/
theorem directives_recognised_of_shadowedHeader :
    let text := "#include \"x.h\"\r\n \t#include  <y.h> // y\n#include\"x.h\"\n#include <gone.h>\n#include \"x.h"
    Directive " \t#include  <y.h> // y".toList "y.h".toList ∧ (∀ name, ¬Directive "#include \"x.h".toList name) ∧
      shadowedHeader.readText (Location.path ⟨["src", "a.c"]⟩) = .ok text ∧
      Found shadowedHeader (Location.path ⟨["src"]⟩) [⟨"/inc"⟩] (Text.lines text.toList)
        [⟨["src", "x.h"]⟩, ⟨["inc", "y.h"]⟩, ⟨["src", "x.h"]⟩] := by
  intro text
  obtain ⟨hparse, hscan, -⟩ := directives_recognised
  have htext : shadowedHeader.readText (Location.path ⟨["src", "a.c"]⟩) = .ok text := by decide +kernel
  refine ⟨(hparse _ _).1 (by decide), fun name hname ↦ ?_, htext,
    (hscan _ [⟨"/inc"⟩] _ _ htext _).1 (by decide +kernel)⟩
  have hnone : parse? "#include \"x.h".toList = none := by decide
  rw [(hparse _ _).2 hname] at hnone
  cases hnone

end Rebuild.Include
