import Rebuild.Proofs.Include.Outline
import Rebuild.Proofs.Path.Body

/-!
# The drawn tree

`treeLines` draws the outline that its branches grow into (`Grows.treeLines_eq`): the bars of a line say of
each file around its entry whether others follow that file, and the connector says it of the entry itself.

The drawing loses nothing. A line is read from its left end, four characters at a time, until the connector
comes, and the length of what has been read is the depth of the entry. So lines that are equal as text are
equal, and outlines of which the lines are equal are equal. Together with `Outline` this makes the text of
a tree say what every file in it includes.
-/

namespace Rebuild.Include.Graph

open Outline (nil entry)

/-- A line of the tree. -/
structure Line where
  /-- Of each file between the top and the entry, the outermost first, whether others follow it. -/
  bars : List Bool
  /-- Whether no other entry follows below the same file. -/
  last : Bool
  /-- What the line shows. -/
  location : Location
  /-- Whether it has been shown before. -/
  marked : Bool

/-- What leads past an entry below a file: a bar if other files follow that one. -/
def bar (more : Bool) : String :=
  if more then "│   " else "    "

/-- What leads past an entry on its left. -/
def indentOf (bars : List Bool) : String :=
  String.join (bars.map bar)

/-- What leads to an entry. -/
def connector (last : Bool) : String :=
  if last then "└── " else "├── "

/-- The mark of an entry, or nothing. -/
def markOf (marked : Bool) : String :=
  if marked then seenMark else ""

/-- A line without its end. -/
def Line.shown (line : Line) : String :=
  indentOf line.bars ++ connector line.last ++ line.location.path.text ++ markOf line.marked

/-- A line as it is written. -/
def Line.text (line : Line) : String :=
  line.shown ++ "\n"

/-- Whether there is an entry. -/
def Outline.isNil : Outline → Bool
  | nil => true
  | entry .. => false

/-- The lines of an outline, from top to bottom, where `bars` leads past it. -/
def Outline.lines (bars : List Bool) : Outline → List Line
  | nil => []
  | entry location marked below rest =>
    { bars, last := rest.isNil, location, marked } ::
      (below.lines (bars ++ [!rest.isNil]) ++ rest.lines bars)

variable {g : Graph} {l m : Location} {seen seen' found : List Location} {outline : Outline}
variable {bars : List Bool}

theorem Outline.map_lines (outline : Outline) (bars : List Bool) :
    (outline.lines bars).map (fun line ↦ (line.location, line.marked)) = outline.entries := by
  induction outline generalizing bars with
  | nil => rfl
  | entry l marked below rest ihbelow ihrest =>
    rw [Outline.lines, Outline.entries, List.map_cons, List.map_append, ihbelow, ihrest]

theorem Grows.isNil_eq (h : Grows g seen found outline) : outline.isNil = found.isEmpty := by
  cases h <;> rfl

/-! ### Drawing an outline -/

theorem branches_cons (indent : String) (l : Location) (found : List Location) :
    branches indent (l :: found) =
      { indent, last := found.isEmpty, location := l } :: branches indent found := by
  cases found <;> rfl

theorem treeLines_known {branch : Branch} {pending : List Branch} (h : branch.location ∈ seen) :
    treeLines g seen (branch :: pending) = branch.line false :: treeLines g seen pending := by
  rw [treeLines, dif_pos (List.contains_iff_mem.2 h)]

theorem treeLines_fresh {branch : Branch} {pending : List Branch} (h : branch.location ∉ seen) :
    treeLines g seen (branch :: pending) = branch.line true ::
      treeLines g (branch.location :: seen)
        (branches branch.indentBelow ((g.includes? branch.location).getD []) ++ pending) := by
  rw [treeLines, dif_neg fun hmem ↦ h (List.contains_iff_mem.1 hmem)]
  split
  · next hnone => simp [hnone, branches]
  · next hfound => simp [hfound]

/-- What has been shown matters only as a set. -/
theorem treeLines_congr (hseen : ∀ l, l ∈ seen ↔ l ∈ seen') (pending : List Branch) :
    treeLines g seen pending = treeLines g seen' pending := by
  have hcons {seen seen' : List Location} (k : Location) (h : ∀ l, l ∈ seen ↔ l ∈ seen') (l : Location) :
      l ∈ k :: seen ↔ l ∈ k :: seen' := by
    rw [List.mem_cons, List.mem_cons, h]
  fun_induction treeLines g seen pending generalizing seen' with
  | case1 => rw [treeLines]
  | case2 seen branch rest hmem ih =>
    rw [treeLines_known ((hseen _).1 (List.contains_iff_mem.1 hmem)), ih hseen]
  | case3 seen branch rest hmem hnone ih =>
    rw [treeLines_fresh fun h ↦ hmem (List.contains_iff_mem.2 ((hseen _).2 h)), hnone, ih (hcons _ hseen),
      Option.getD_none, branches, List.nil_append]
  | case4 seen branch rest hmem found hfound ih =>
    rw [treeLines_fresh fun h ↦ hmem (List.contains_iff_mem.2 ((hseen _).2 h)), hfound, ih (hcons _ hseen),
      Option.getD_some]

theorem indentOf_append (bars : List Bool) (more : Bool) : indentOf (bars ++ [more]) = indentOf bars ++ bar more := by
  simp [indentOf]

/-- The branches to what grows into an outline are drawn as its lines, and after them it has been shown. -/
theorem Grows.treeLines_eq (h : Grows g seen found outline) (bars : List Bool) (pending : List Branch) :
    treeLines g seen (branches (indentOf bars) found ++ pending) =
      (outline.lines bars).map Line.text ++ treeLines g (outline.expanded ++ seen) pending := by
  induction h generalizing bars pending with
  | nil => rfl
  | @known seen found rest l hl hrest ih =>
    rw [branches_cons, List.cons_append, treeLines_known hl, ih, Outline.lines, hrest.isNil_eq,
      Outline.expanded_marked, List.map_cons]
    rfl
  | @fresh seen found below rest l hl hbelow hrest ihbelow ihrest =>
    have hindent : Branch.indentBelow ⟨indentOf bars, found.isEmpty, l⟩ = indentOf (bars ++ [!found.isEmpty]) := by
      rw [indentOf_append]
      cases found <;> rfl
    have hline : Branch.line ⟨indentOf bars, found.isEmpty, l⟩ true =
        Line.text ⟨bars, found.isEmpty, l, false⟩ := rfl
    have hset (k : Location) : k ∈ rest.expanded ++ (below.expanded ++ l :: seen) ↔
        k ∈ (entry l false below rest).expanded ++ seen := by
      simp only [Outline.expanded_unmarked, List.mem_append, List.mem_cons]
      tauto
    rw [branches_cons, List.cons_append, treeLines_fresh hl, hindent, ihbelow, ihrest, treeLines_congr hset,
      Outline.lines, hrest.isNil_eq, List.map_cons, List.map_append, List.cons_append, List.append_assoc, hline]

/-! ### Reading a drawing -/

/-- Whether the path of a location says which it is, and neither breaks the line nor ends like a mark. -/
structure Legible (l : Location) : Prop where
  /-- The names are ordinary. -/
  segmentName : ∀ name ∈ l.names, Path.SegmentName name
  /-- The path is on one line. -/
  no_newline : '\n' ∉ l.path.text.toList
  /-- The path does not end in what would be taken for a mark. -/
  no_mark : ¬seenMark.toList <:+ l.path.text.toList

instance (l : Location) : Decidable (Legible l) :=
  decidable_of_iff ((∀ name ∈ l.names, Path.SegmentName name) ∧ '\n' ∉ l.path.text.toList ∧
    ¬seenMark.toList <:+ l.path.text.toList) ⟨fun h ↦ ⟨h.1, h.2.1, h.2.2⟩, fun h ↦ ⟨h.1, h.2, h.3⟩⟩

/-- The path of a location made of ordinary names spells it. -/
theorem ofPath?_path (h : ∀ name ∈ l.names, Path.SegmentName name) : Location.ofPath? l.path = some l := by
  obtain ⟨names⟩ := l
  cases names with
  | nil => decide +kernel
  | cons first rest =>
    have hbody : (Location.path ⟨first :: rest⟩).body = first :: rest :=
      Path.body_ofBody_true (List.cons_ne_nil _ _) fun name hname ↦ (h name hname).no_slash
    have hcomponents : (Location.path ⟨first :: rest⟩).components =
        .root :: (first :: rest).map Component.name := by
      rw [Path.components, hbody, Path.componentsOf_names h, Location.path, Path.isAbsolute_ofBody_true, if_pos rfl]
    have hnames : (Location.path ⟨first :: rest⟩).names = first :: rest := by
      rw [Path.names, hcomponents]
      simp [List.filterMap_map]
    rw [Location.ofPath?, hcomponents, hnames]
    simp [Component.isName]

/-- The characters of a line without its end. -/
def Line.characters (line : Line) : List Char :=
  line.bars.flatMap (fun more ↦ (bar more).toList) ++
    ((connector line.last).toList ++ (line.location.path.text.toList ++ (markOf line.marked).toList))

theorem Line.toList_text (line : Line) : line.text.toList = line.characters ++ ['\n'] := by
  simp [Line.text, Line.shown, Line.characters, indentOf, String.toList_join, List.flatMap_map]

theorem Line.no_newline (line : Line) (h : Legible line.location) : '\n' ∉ line.characters := by
  have hbar (more : Bool) : '\n' ∉ (bar more).toList := by cases more <;> decide
  have hconnector (last : Bool) : '\n' ∉ (connector last).toList := by cases last <;> decide
  have hmark (marked : Bool) : '\n' ∉ (markOf marked).toList := by cases marked <;> decide
  simp only [Line.characters, List.mem_append, List.mem_flatMap, not_or, not_exists, not_and]
  exact ⟨fun more _ ↦ hbar more, hconnector _, h.no_newline, hmark _⟩

/-- What is drawn before a path tells where the path begins. -/
theorem eq_of_leading_eq {bars bars' : List Bool} {last last' : Bool} {cs cs' : List Char}
    (h : bars.flatMap (fun more ↦ (bar more).toList) ++ ((connector last).toList ++ cs) =
      bars'.flatMap (fun more ↦ (bar more).toList) ++ ((connector last').toList ++ cs')) :
    bars = bars' ∧ last = last' ∧ cs = cs' := by
  induction bars generalizing bars' with
  | nil =>
    cases bars' with
    | nil =>
      refine ⟨rfl, ?_⟩
      cases last <;> cases last' <;> simp [connector] at h <;> exact ⟨rfl, h⟩
    | cons more' bars' => cases more' <;> cases last <;> simp [bar, connector] at h
  | cons more bars ih =>
    cases bars' with
    | nil => cases more <;> cases last' <;> simp [bar, connector] at h
    | cons more' bars' =>
      rw [List.flatMap_cons, List.flatMap_cons, List.append_assoc, List.append_assoc] at h
      have hmore : more = more' := by
        cases more <;> cases more' <;> simp [bar] at h <;> rfl
      subst hmore
      obtain ⟨rfl, hrest⟩ := ih (List.append_cancel_left h)
      exact ⟨rfl, hrest⟩

/-- A path that does not end like a mark tells whether a mark follows it. -/
theorem eq_of_marked_eq {marked marked' : Bool} (hl : Legible l) (hm : Legible m)
    (h : l.path.text.toList ++ (markOf marked).toList = m.path.text.toList ++ (markOf marked').toList) :
    l = m ∧ marked = marked' := by
  have hpath {marked : Bool}
      (h : l.path.text.toList ++ (markOf marked).toList = m.path.text.toList ++ (markOf marked).toList) : l = m := by
    have htext := String.toList_injective (List.append_cancel_right h)
    have hspelled : l.path = m.path := congrArg Path.mk htext
    exact Option.some.inj ((ofPath?_path hl.segmentName).symm.trans (hspelled ▸ ofPath?_path hm.segmentName))
  cases marked <;> cases marked'
  case false.false | true.true => exact ⟨hpath h, rfl⟩
  case false.true =>
    refine absurd ⟨m.path.text.toList, ?_⟩ hl.no_mark
    simpa [markOf] using h.symm
  case true.false =>
    refine absurd ⟨l.path.text.toList, ?_⟩ hm.no_mark
    simpa [markOf] using h

/-- Lines that are written in the same way are the same. -/
theorem Line.eq_of_characters_eq {line line' : Line} (hl : Legible line.location) (hl' : Legible line'.location)
    (h : line.characters = line'.characters) : line = line' := by
  obtain ⟨bars, last, l, marked⟩ := line
  obtain ⟨bars', last', l', marked'⟩ := line'
  obtain ⟨rfl, rfl, hrest⟩ := eq_of_leading_eq h
  obtain ⟨rfl, rfl⟩ := eq_of_marked_eq hl hl' hrest
  rfl

/-- Lines follow that are not as deep as `depth`, or none. -/
def Shallower (depth : Nat) (lines : List Line) : Prop :=
  ∀ line ∈ lines.head?, line.bars.length < depth

theorem Outline.shallower_lines {depth : Nat} {tail : List Line} (outline : Outline) (hbars : bars.length < depth)
    (htail : Shallower depth tail) : Shallower depth (outline.lines bars ++ tail) := by
  cases outline with
  | nil => exact htail
  | entry l marked below rest =>
    intro line hline
    obtain rfl := Option.some.inj hline
    exact hbars

theorem Outline.not_shallower_lines_entry {marked : Bool} {below rest : Outline} {tail : List Line} :
    ¬Shallower bars.length ((entry l marked below rest).lines bars ++ tail) :=
  fun h ↦ Nat.lt_irrefl _ (h _ rfl)

/-- Outlines of which the lines are the same are the same: where a line is less deep, an outline has ended. -/
theorem Outline.eq_of_lines_eq {outline outline' : Outline} {tail tail' : List Line}
    (htail : Shallower bars.length tail) (htail' : Shallower bars.length tail')
    (h : outline.lines bars ++ tail = outline'.lines bars ++ tail') : outline = outline' ∧ tail = tail' := by
  induction outline generalizing bars outline' tail tail' with
  | nil =>
    cases outline' with
    | nil => exact ⟨rfl, h⟩
    | entry =>
      rw [Outline.lines, List.nil_append] at h
      exact absurd (h ▸ htail) not_shallower_lines_entry
  | entry l marked below rest ihbelow ihrest =>
    cases outline' with
    | nil =>
      rw [lines.eq_1 bars, List.nil_append] at h
      exact absurd (h ▸ htail') not_shallower_lines_entry
    | entry l' marked' below' rest' =>
      rw [Outline.lines, Outline.lines, List.cons_append, List.cons_append, List.append_assoc,
        List.append_assoc] at h
      obtain ⟨hline, hrest⟩ := List.cons.inj h
      obtain ⟨-, hlast, rfl, rfl⟩ := Line.mk.inj hline
      rw [hlast] at hrest
      have hdeeper : bars.length < (bars ++ [!rest'.isNil]).length := by simp
      have hshallower {tail : List Line} (rest : Outline) (htail : Shallower bars.length tail) :
          Shallower (bars ++ [!rest'.isNil]).length (rest.lines bars ++ tail) :=
        rest.shallower_lines hdeeper fun line hline ↦ Nat.lt_trans (htail line hline) hdeeper
      obtain ⟨rfl, hbehind⟩ := ihbelow (hshallower rest htail) (hshallower rest' htail') hrest
      obtain ⟨rfl, htails⟩ := ihrest htail htail' hbehind
      exact ⟨rfl, htails⟩

/-- Lines that are written in the same way one by one are the same. -/
theorem Line.eq_of_map_characters_eq {lines lines' : List Line} (hl : ∀ line ∈ lines, Legible line.location)
    (hl' : ∀ line ∈ lines', Legible line.location) (h : lines.map characters = lines'.map characters) :
    lines = lines' := by
  induction lines generalizing lines' with
  | nil => exact (List.map_eq_nil_iff.1 h.symm).symm
  | cons line lines ih =>
    obtain ⟨line', rest, rfl, hline, hrest⟩ := List.map_eq_cons_iff.1 h.symm
    obtain ⟨hfirst, hlines⟩ := List.forall_mem_cons.1 hl
    obtain ⟨hfirst', hlines'⟩ := List.forall_mem_cons.1 hl'
    rw [Line.eq_of_characters_eq hfirst hfirst' hline.symm, ih hlines hlines' hrest.symm]

/-- What is written of a file and the outline below it tells both. -/
theorem Outline.eq_of_text_eq {outline outline' : Outline} {top top' : String}
    (hl : ∀ shown ∈ outline.entries, Legible shown.1) (hl' : ∀ shown ∈ outline'.entries, Legible shown.1)
    (htop : '\n' ∉ top.toList) (htop' : '\n' ∉ top'.toList)
    (h : top ++ "\n" ++ String.join ((outline.lines []).map Line.text) =
      top' ++ "\n" ++ String.join ((outline'.lines []).map Line.text)) : top = top' ∧ outline = outline' := by
  have hlegible {outline : Outline} (h : ∀ shown ∈ outline.entries, Legible shown.1) (line : Line)
      (hline : line ∈ outline.lines []) : Legible line.location :=
    h _ (outline.map_lines [] ▸ List.mem_map_of_mem hline)
  -- the text is cut into the characters of its lines
  have hcut {outline : Outline} {top : String} (hl : ∀ shown ∈ outline.entries, Legible shown.1)
      (htop : '\n' ∉ top.toList) :
      Text.split (· == '\n') (top ++ "\n" ++ String.join ((outline.lines []).map Line.text)).toList =
        top.toList :: (outline.lines []).map Line.characters ++ [[]] := by
    have hparts : ∀ part ∈ top.toList :: (outline.lines []).map Line.characters, '\n' ∉ part := by
      refine List.forall_mem_cons.2 ⟨htop, fun characters hmem ↦ ?_⟩
      obtain ⟨line, hline, rfl⟩ := List.mem_map.1 hmem
      exact line.no_newline (hlegible hl line hline)
    rw [← Text.split_ended hparts]
    simp [String.toList_join, List.flatMap_map, Line.toList_text]
  have hparts := List.append_cancel_right ((hcut hl htop).symm.trans (h ▸ hcut hl' htop'))
  obtain ⟨hfirst, hlines⟩ := List.cons.inj hparts
  have hsame := Line.eq_of_map_characters_eq (hlegible hl) (hlegible hl') hlines
  have hnone : Shallower ([] : List Bool).length [] := fun _ h ↦ nomatch h
  have happended : outline.lines [] ++ [] = outline'.lines [] ++ [] := by rw [hsame]
  exact ⟨String.toList_injective hfirst, (Outline.eq_of_lines_eq hnone hnone happended).1⟩

/-! ### The tree -/

/-- What is shown of a path: the path that it leads to, or the path itself if it leads nowhere. -/
def shownPath (s : FileStore) (p : Path) : Path :=
  ((s.canonical? p).map Location.path).getD p

/-- What is shown of a path tells the node. -/
theorem ofPath?_shownPath {s : FileStore} {p : Path} (h : key? s p = some l)
    (hl : ∀ name ∈ l.names, Path.SegmentName name) : Location.ofPath? (shownPath s p) = some l := by
  rw [key?] at h
  rw [shownPath]
  cases hcanonical : s.canonical? p with
  | none => rwa [hcanonical] at h
  | some k =>
    rw [hcanonical] at h
    obtain rfl := Option.some.inj h
    exact ofPath?_path hl

/-- What an outline shows below a file: of each location that the file leads to everything that it includes,
below its first entry and nowhere else. -/
structure Outline.Unfolds (g : Graph) (top : Location) (below : Outline) : Prop where
  /-- Directly below the file is what it includes, in order. -/
  heads : below.heads = (g.includes? top).getD []
  /-- Directly below each unmarked entry is what it includes, in order, and below each marked one nothing. -/
  shows : below.Shows g
  /-- Those entries are marked that show a location again. -/
  marks : ∀ before l marked after, below.entries = before ++ (l, marked) :: after →
    (marked = true ↔ l ∈ top :: before.map Prod.fst)
  /-- No location is expanded twice. -/
  nodup : (top :: below.expanded).Nodup
  /-- What is expanded is what the file leads to. -/
  leads : ∀ l, l ∈ top :: below.expanded ↔ g.Leads top l
  /-- Beside the line of the file there is one for each that includes another. -/
  length : 1 + (below.lines []).length = 1 + ((top :: below.expanded).map g.degree).sum

theorem Grows.unfolds (h : Grows g [l] ((g.includes? l).getD []) outline) : outline.Unfolds g l where
  heads := h.heads_eq
  shows := h.shows
  marks before k marked after hshown := by
    rw [h.marked_entries.iff_mem hshown, List.mem_singleton, List.mem_cons]
  nodup := by
    obtain ⟨hnodup, hnew⟩ := h.nodup
    exact List.nodup_cons.2 ⟨fun hl ↦ hnew l hl List.mem_cons_self, hnodup⟩
  leads k := h.leads_iff.symm
  length := by
    rw [← List.length_map, Outline.map_lines, h.length_entries, List.map_cons, List.sum_cons, degree]

/-- The tree of a file is the drawing of an outline that unfolds it. -/
theorem exists_tree_eq {s : FileStore} {p : Path} (h : key? s p = some l) : ∃ below : Outline,
    g.tree s p = (shownPath s p).text ++ "\n" ++ String.join ((below.lines []).map Line.text) ∧
      below.Unfolds g l ∧ ∀ shown ∈ below.entries, g.Leads l shown.1 := by
  obtain ⟨below, hbelow⟩ := exists_grows g [l] ((g.includes? l).getD [])
  refine ⟨below, ?_, hbelow.unfolds, fun shown hshown ↦ hbelow.leads_iff.2 ?_⟩
  · have hlines := hbelow.treeLines_eq [] []
    rw [List.append_nil, treeLines.eq_1, List.append_nil] at hlines
    rw [← hlines, tree, h]
    rfl
  · rcases hbelow.mem_of_mem_entries (List.mem_map_of_mem hshown) with hnew | hseen
    · exact List.mem_cons_of_mem _ hnew
    · exact List.mem_singleton.1 hseen ▸ List.mem_cons_self

/-- A tree of which the text can be read: everything that the file leads to is legible, and what is shown of
the file itself is on one line. -/
structure LegibleTree (g : Graph) (s : FileStore) (p : Path) (top : Location) : Prop where
  /-- The file is this node. -/
  key : key? s p = some top
  /-- Every location of the tree is legible. -/
  legible : ∀ l, g.Leads top l → Legible l
  /-- The first line is one line. -/
  no_newline : '\n' ∉ (shownPath s p).text.toList

/-- The text of a legible tree determines what every file in it includes. -/
theorem LegibleTree.eq_of_tree_eq {g g' : Graph} {s s' : FileStore} {p p' : Path} {top top' : Location}
    (h : LegibleTree g s p top) (h' : LegibleTree g' s' p' top') (htree : g'.tree s' p' = g.tree s p) :
    top' = top ∧ ∀ l, (g'.Leads top' l ↔ g.Leads top l) ∧
      (g.Leads top l → (g'.includes? l).getD [] = (g.includes? l).getD []) := by
  obtain ⟨below, htext, hunfolds, hleads⟩ := exists_tree_eq (g := g) h.key
  obtain ⟨below', htext', hunfolds', hleads'⟩ := exists_tree_eq (g := g') h'.key
  obtain ⟨hshown, rfl⟩ := Outline.eq_of_text_eq (fun _ hmem ↦ h.legible _ (hleads _ hmem))
    (fun _ hmem ↦ h'.legible _ (hleads' _ hmem)) h.no_newline h'.no_newline
    (htext.symm.trans (htree.symm.trans htext'))
  have htop : top' = top := by
    have hspelled := ofPath?_shownPath h.key (h.legible top .refl).segmentName
    have hspelled' := ofPath?_shownPath h'.key (h'.legible top' .refl).segmentName
    have hsame : shownPath s p = shownPath s' p' := congrArg Path.mk hshown
    exact Option.some.inj (hspelled'.symm.trans (hsame ▸ hspelled))
  subst htop
  refine ⟨rfl, fun l ↦ ⟨(hunfolds'.leads l).symm.trans (hunfolds.leads l), fun hl ↦ ?_⟩⟩
  rcases List.mem_cons.1 ((hunfolds.leads l).2 hl) with rfl | hl
  · exact hunfolds'.heads.symm.trans hunfolds.heads
  · exact hunfolds'.shows.includes?_eq hunfolds.shows hl

/-- The tree of a file that is not a node and spells no location is the path alone. Every other tree is
drawn below its first line from an outline that unfolds the file, however the graph is made: from all that the
file leads to everything that it includes is shown once. So the text of a legible tree determines which
files there are in it and what each of them includes. -/
theorem exists_tree_eq_unfolding (g : Graph) (s : FileStore) (p : Path) :
    (key? s p = none → g.tree s p = p.text ++ "\n") ∧
    ∀ top, key? s p = some top →
      (∃ below : Outline,
        g.tree s p = (shownPath s p).text ++ "\n" ++ String.join ((below.lines []).map Line.text) ∧
          below.Unfolds g top) ∧
      (LegibleTree g s p top → ∀ g' s' p' top', LegibleTree g' s' p' top' → g'.tree s' p' = g.tree s p →
        top' = top ∧ ∀ l, (g'.Leads top' l ↔ g.Leads top l) ∧
          (g.Leads top l → (g'.includes? l).getD [] = (g.includes? l).getD [])) := by
  refine ⟨fun hnone ↦ ?_, fun top htop ↦ ⟨?_, fun h g' s' p' top' h' ↦ h.eq_of_tree_eq h'⟩⟩
  · have hcanonical : s.canonical? p = none := by
      cases hcanonical : s.canonical? p with
      | none => rfl
      | some l => rw [key?, hcanonical] at hnone; cases hnone
    rw [tree, hnone, hcanonical]
    simp
  · obtain ⟨below, htext, hunfolds, -⟩ := exists_tree_eq (g := g) htop
    exact ⟨below, htext, hunfolds⟩

/-- The graph with a file beside that nothing includes. -/
def cyclicGraphBeside : Graph where
  nodes := (⟨["e.c"]⟩, [⟨["b.h"]⟩]) :: cyclicGraph.nodes

/-- Locations that include no others lead to no others. -/
theorem Leads.mem_of_closed {members : List Location} (h : g.Leads l m) (hl : l ∈ members)
    (hclosed : ∀ node ∈ g.nodes, node.1 ∈ members → ∀ k ∈ node.2, k ∈ members) : m ∈ members := by
  induction h with
  | refl => exact hl
  | tail _ hnext ih =>
    obtain ⟨found, hfound, hk⟩ := hnext
    obtain ⟨before, after, hnodes, -⟩ := List.lookup_eq_some_iff.1 hfound
    exact hclosed _ (hnodes ▸ List.mem_append_right _ List.mem_cons_self) ih _ hk

/-- The cycle is shown once, and what its files include can be read from the text, whatever else there is. -/
theorem exists_tree_eq_unfolding_of_cyclicGraph :
    cyclicGraph.tree changedHeader ⟨"/a.c"⟩ =
        "/a.c\n└── /b.h\n    └── /c.h\n        ├── /b.h (seen)\n        └── /d.h\n" ∧
      LegibleTree cyclicGraph changedHeader ⟨"/a.c"⟩ ⟨["a.c"]⟩ ∧
      LegibleTree cyclicGraphBeside changedHeader ⟨"/./a.c"⟩ ⟨["a.c"]⟩ ∧
      ∀ l, cyclicGraphBeside.Leads ⟨["a.c"]⟩ l ↔ cyclicGraph.Leads ⟨["a.c"]⟩ l := by
  have hlegible : ∀ l ∈ cyclicGraph.locations ++ [⟨["d.h"]⟩], Legible l := by decide +kernel
  have htree : LegibleTree cyclicGraph changedHeader ⟨"/a.c"⟩ ⟨["a.c"]⟩ :=
    ⟨by decide +kernel, fun l hl ↦ hlegible l (hl.mem_of_closed (by decide) (by decide)), by decide +kernel⟩
  have htree' : LegibleTree cyclicGraphBeside changedHeader ⟨"/./a.c"⟩ ⟨["a.c"]⟩ :=
    ⟨by decide +kernel, fun l hl ↦ hlegible l (hl.mem_of_closed (by decide) (by decide)), by decide +kernel⟩
  obtain ⟨-, hdetermined⟩ := (exists_tree_eq_unfolding cyclicGraph changedHeader ⟨"/a.c"⟩).2 _ htree.key
  obtain ⟨-, hleads⟩ := hdetermined htree _ _ _ _ htree' (by decide +kernel)
  exact ⟨by decide +kernel, htree, htree', fun l ↦ (hleads l).1⟩

end Rebuild.Include.Graph
