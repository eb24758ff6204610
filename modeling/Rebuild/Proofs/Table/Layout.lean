import Rebuild.Proofs.Table.Narrowing
import Rebuild.Proofs.Text
import Rebuild.Proofs.Text.Columns

/-!
# The layout of a table

Every line of a table is as wide as every other one: a rule by what it is made of, and a line of cells
because a cell is cut to the width of its column and padded to it. For the second it has to be known that a
line is as wide as its pieces together, that bold text is as wide as bare text, and that what is cut is not
too wide (`Measured`). This is not so for every text, as a character may be written together with the one
behind it, but it is for texts of single columns (`measured_of_spans`).

The widths of the columns are those that `Narrowing` ends with, so the table takes no more than it is given
whenever its least widths allow it (`layout`).
-/

namespace Rebuild

namespace Table

open Text (displayWidth truncate Single Spans)

variable {table : Table} {headers row : List String} {rows : List (List String)} {coloured : Bool}
variable {maxWidth width i : Nat} {widths natural final : List Nat} {cells : List (List Char)} {cs : List Char}

/-! ### Natural widths -/

/-- A table to which rows are added gets those that fit it. -/
theorem foldl_addRow (table : Table) (rows : List (List String)) :
    rows.foldl addRow table =
      { table with rows := table.rows ++ rows.filter (·.length = table.headers.length) } := by
  induction rows generalizing table with
  | nil => simp
  | cons row rows ih =>
    rw [List.foldl_cons, ih, addRow]
    split
    · next h => simp [h]
    · next h => simp [h]

theorem headers_ofRows (headers : List String) (rows : List (List String)) :
    (ofRows headers rows).headers = headers := by
  rw [ofRows, foldl_addRow]

theorem length_of_mem_rows (h : row ∈ (ofRows headers rows).rows) : row.length = headers.length := by
  rw [ofRows, foldl_addRow, List.nil_append, List.mem_filter] at h
  exact of_decide_eq_true h.2

/-- The lines of cells as they are written, the headers first. -/
def cellLines (table : Table) (coloured : Bool) : List (List (List Char)) :=
  table.headers.map (fun header ↦ (Text.Style.strong.apply coloured header).toList) ::
    table.rows.map fun row ↦ row.map flatten

/-- A cell fits a column of the given width. -/
def Fits (cs : List Char) (width : Nat) : Prop :=
  displayWidth cs ≤ width

/-- The widths at which the cells of one more row fit as well. -/
def widen (widths : List Nat) (row : List String) : List Nat :=
  List.zipWith (fun width cell ↦ max width (displayWidth (flatten cell))) widths row

theorem widen_spec (h : row.length = widths.length) :
    List.Forall₂ (· ≤ ·) widths (widen widths row) ∧ List.Forall₂ Fits (row.map flatten) (widen widths row) := by
  induction widths generalizing row with
  | nil =>
    obtain rfl := List.length_eq_zero_iff.1 h
    exact ⟨.nil, .nil⟩
  | cons width widths ih =>
    obtain ⟨cell, row, rfl⟩ := List.exists_cons_of_length_eq_add_one h
    obtain ⟨hle, hfits⟩ := ih (Nat.succ.inj h)
    exact ⟨.cons (Nat.le_max_left _ _) hle, .cons (Nat.le_max_right _ _) hfits⟩

/-- Lists that are related to one list column by column are related to each other. -/
theorem forall₂_comp {α β γ : Type} {R : α → β → Prop} {S : β → γ → Prop} {as : List α} {bs : List β}
    {cs : List γ} (h : List.Forall₂ R as bs) (h' : List.Forall₂ S bs cs) :
    List.Forall₂ (fun a c ↦ ∃ b, R a b ∧ S b c) as cs := by
  induction h generalizing cs with
  | nil =>
    cases h'
    exact .nil
  | cons hfirst _ ih =>
    cases h' with
    | cons hfirst' hrest => exact .cons ⟨_, hfirst, hfirst'⟩ (ih hrest)

/-- Widening goes up, and in the end every row fits. -/
theorem foldl_widen_spec (h : ∀ row ∈ rows, row.length = widths.length) :
    List.Forall₂ (· ≤ ·) widths (rows.foldl widen widths) ∧
      ∀ row ∈ rows, List.Forall₂ Fits (row.map flatten) (rows.foldl widen widths) := by
  induction rows generalizing widths with
  | nil => exact ⟨List.forall₂_same.2 fun _ _ ↦ Nat.le_refl _, List.forall_mem_nil _⟩
  | cons row rows ih =>
    obtain ⟨hrow, hrows⟩ := List.forall_mem_cons.1 h
    obtain ⟨hwiden, hfits⟩ := widen_spec hrow
    obtain ⟨hle, hrest⟩ := ih fun row hmem ↦ (hrows row hmem).trans hwiden.length_eq
    have htrans (n m : Nat) (h : ∃ k, n ≤ k ∧ k ≤ m) : n ≤ m := h.elim fun _ h ↦ Nat.le_trans h.1 h.2
    exact ⟨(forall₂_comp hwiden hle).imp htrans, List.forall_mem_cons.2
      ⟨(forall₂_comp hfits hle).imp fun cs m ↦ htrans (displayWidth cs) m, hrest⟩⟩

/-- At their natural widths the columns are wide enough for the bare headers and for every row. -/
theorem naturalWidths_spec (h : ∀ row ∈ table.rows, row.length = table.headers.length) :
    List.Forall₂ (fun header width ↦ Fits header.toList width) table.headers table.naturalWidths ∧
      ∀ row ∈ table.rows, List.Forall₂ Fits (row.map flatten) table.naturalWidths := by
  have hlengths : ∀ row ∈ table.rows,
      row.length = (table.headers.map fun header ↦ displayWidth header.toList).length := fun row hrow ↦
    (h row hrow).trans (List.length_map _).symm
  obtain ⟨hle, hrows⟩ := foldl_widen_spec hlengths
  rw [List.forall₂_map_left_iff] at hle
  exact ⟨hle, hrows⟩

theorem length_naturalWidths (h : ∀ row ∈ table.rows, row.length = table.headers.length) :
    table.naturalWidths.length = table.headers.length :=
  (naturalWidths_spec h).1.length_eq.symm

/-- They are wide enough for the bold headers as well, if these are as wide as the bare ones. -/
theorem fits_naturalWidths (h : ∀ row ∈ table.rows, row.length = table.headers.length)
    (hstyled : ∀ header ∈ table.headers,
      displayWidth (Text.Style.strong.apply coloured header).toList = displayWidth header.toList) :
    ∀ cells ∈ table.cellLines coloured, List.Forall₂ Fits cells table.naturalWidths := by
  obtain ⟨hheaders, hrows⟩ := naturalWidths_spec h
  refine List.forall_mem_cons.2 ⟨?_, fun cells hcells ↦ ?_⟩
  · rw [List.forall₂_map_left_iff, List.forall₂_iff_zip]
    refine ⟨hheaders.length_eq, fun {header width} hcolumn ↦ ?_⟩
    rw [Fits, hstyled header (List.of_mem_zip hcolumn).1]
    exact List.forall₂_zip hheaders hcolumn
  · obtain ⟨row, hrow, rfl⟩ := List.mem_map.1 hcells
    exact hrows row hrow

/-- The widths of a table are those that the loop ends with. -/
theorem narrowing_widths (h : ∀ row ∈ table.rows, row.length = table.headers.length) (maxWidth : Nat) :
    Narrowing (maxWidth - overhead table.headers.length) table.naturalWidths (table.widths maxWidth) := by
  rw [← length_naturalWidths h]
  exact narrowing_narrow (Nat.le_refl _)

theorem length_widths (h : ∀ row ∈ table.rows, row.length = table.headers.length) (maxWidth : Nat) :
    (table.widths maxWidth).length = table.headers.length :=
  (narrowing_widths h maxWidth).evenly.length_eq.symm.trans (length_naturalWidths h)

theorem widths_ne_nil (h : ∀ row ∈ table.rows, row.length = table.headers.length) (hne : table.headers ≠ [])
    (maxWidth : Nat) : table.widths maxWidth ≠ [] := by
  rw [← List.length_pos_iff, length_widths h, List.length_pos_iff]
  exact hne

/-- What fits a column at its natural width is not cut unless the column has been narrowed. -/
theorem truncate_of_natural (h : List.Forall₂ Fits cells natural) (hnatural : natural[i]? = some width)
    (hcell : cells[i]? = some cs) : truncate cs width "...".toList = cs := by
  obtain ⟨hi, rfl⟩ := List.getElem?_eq_some_iff.1 hnatural
  obtain ⟨hi', rfl⟩ := List.getElem?_eq_some_iff.1 hcell
  exact Text.truncate_of_fits (h.get hi' hi)

/-! ### Rules -/

/-- The characters of a rule. -/
def ruleCharacters (left mid right : Char) (widths : List Nat) : List Char :=
  ' ' :: ' ' :: left :: ([mid].intercalate (widths.map fun width ↦ List.replicate (width + 2) '─') ++ [right])

theorem toList_rule {left mid right : String} {l m r : Char} (hl : left.toList = [l]) (hm : mid.toList = [m])
    (hr : right.toList = [r]) (widths : List Nat) :
    (rule left mid right widths).toList = ruleCharacters l m r widths ++ ['\n'] := by
  simp [rule, ruleCharacters, String.toList_intercalate, Function.comp_def, hl, hm, hr]

instance (c : Char) : Decidable (Single c) :=
  decidable_of_iff (Text.Ansi.isEscape c = false ∧ Text.charWidth c = 1 ∧ ({} : Text.Context).step c = (1, {}))
    ⟨fun h ↦ ⟨h.1, h.2.1, h.2.2⟩, fun h ↦ ⟨h.1, h.2, h.3⟩⟩

theorem single_of_all (h : cs.all (fun c ↦ decide (Single c)) = true) : ∀ c ∈ cs, Single c :=
  fun c hc ↦ of_decide_eq_true (List.all_eq_true.1 h c hc)

theorem single_dash : Single '─' := by decide +kernel

/-- Between the outer ends of a rule each column takes three more than its width, but for one in all. -/
theorem intercalate_spec {mid : Char} (hmid : Single mid) (hwidths : widths ≠ []) :
    (∀ c ∈ [mid].intercalate (widths.map fun width ↦ List.replicate (width + 2) '─'), Single c) ∧
      ([mid].intercalate (widths.map fun width ↦ List.replicate (width + 2) '─')).length + 1 =
        3 * widths.length + total widths := by
  induction widths with
  | nil => exact absurd rfl hwidths
  | cons width widths ih =>
    have hsegment : ∀ c ∈ List.replicate (width + 2) '─', Single c :=
      fun c hc ↦ List.eq_of_mem_replicate hc ▸ single_dash
    cases widths with
    | nil =>
      rw [List.map_singleton, List.intercalate_singleton, List.length_replicate]
      exact ⟨hsegment, by simp [total]; omega⟩
    | cons next rest =>
      obtain ⟨hsingle, hlength⟩ := ih (List.cons_ne_nil _ _)
      rw [List.map_cons] at hsingle hlength
      rw [List.map_cons, List.map_cons, List.intercalate_cons_cons]
      refine ⟨?_, ?_⟩
      · simp only [List.forall_mem_append, List.forall_mem_singleton]
        exact ⟨⟨hsegment, hmid⟩, hsingle⟩
      · have htotal : total (width :: next :: rest) = width + total (next :: rest) := rfl
        simp only [List.length_append, List.length_replicate, List.length_singleton]
        rw [htotal, List.length_cons (a := width)]
        omega

/-- A rule is as wide as the columns and what is between them. -/
theorem ruleCharacters_spec {left mid right : Char} (hleft : Single left) (hmid : Single mid)
    (hright : Single right) (hwidths : widths ≠ []) :
    (∀ c ∈ ruleCharacters left mid right widths, Single c) ∧
      (ruleCharacters left mid right widths).length = overhead widths.length + total widths := by
  obtain ⟨hsingle, hlength⟩ := intercalate_spec hmid hwidths
  have hblank : Single ' ' := by decide +kernel
  refine ⟨?_, ?_⟩
  · simp only [ruleCharacters, List.forall_mem_cons, List.forall_mem_append]
    exact ⟨hblank, hblank, hleft, hsingle, hright, List.forall_mem_nil _⟩
  · simp only [ruleCharacters, List.length_cons, List.length_append, List.length_nil, overhead]
    omega

/-! ### Lines of cells -/

/-- What a cell is written with: a blank, what is shown of it, the padding, and the rule behind it. -/
def cellPieces (width : Nat) (cs : List Char) : List (List Char) :=
  [[' '], truncate cs width "...".toList,
    List.replicate (width - displayWidth (truncate cs width "...".toList)) ' ', " │".toList]

/-- What a line of cells is written with. -/
def linePieces (widths : List Nat) (cells : List (List Char)) : List (List Char) :=
  "  │".toList :: (List.zipWith cellPieces widths cells).flatten

theorem toList_line (widths : List Nat) (cells : List (List Char)) :
    (line widths cells).toList = (linePieces widths cells).flatten ++ ['\n'] := by
  have hcell : cell = fun width cs ↦ (cellPieces width cs).flatten := by
    funext width cs
    simp only [cell, cellPieces, List.flatten_cons, List.flatten_nil, List.append_nil, List.cons_append,
      List.nil_append, List.append_assoc]
  have hcells : List.zipWith cell widths cells = (List.zipWith cellPieces widths cells).map List.flatten := by
    rw [hcell, List.map_zipWith]
  have htext : (line widths cells).toList =
      "  │".toList ++ (List.zipWith cell widths cells).flatten ++ ['\n'] := String.toList_ofList
  rw [htext, hcells, linePieces, List.flatten_cons, List.flatten_flatten]

/-- The pieces of a line take together what the columns take and what is between them, if what is cut is not
too wide. -/
theorem sum_linePieces (h : List.Forall₂ (fun cs width ↦ Fits (truncate cs width "...".toList) width) cells widths) :
    ((linePieces widths cells).map displayWidth).sum = overhead widths.length + total widths := by
  have hblanks (n : Nat) : displayWidth (List.replicate n ' ') = n := by
    have hsingle : ∀ c ∈ List.replicate n ' ', Single c :=
      fun c hc ↦ List.eq_of_mem_replicate hc ▸ (by decide +kernel : Single ' ')
    rw [(Text.spans_of_single hsingle).displayWidth_eq, List.length_replicate]
  have hblank : displayWidth [' '] = 1 := hblanks 1
  have hbehind : displayWidth " │".toList = 2 := by decide +kernel
  have hfirst : displayWidth "  │".toList = 3 := by decide +kernel
  have hcells : ((List.zipWith cellPieces widths cells).flatten.map displayWidth).sum =
      3 * widths.length + total widths := by
    induction h with
    | nil => rfl
    | @cons cs width cells widths hfits _ ih =>
      have htotal : total (width :: widths) = width + total widths := rfl
      rw [Fits] at hfits
      rw [List.zipWith_cons_cons, List.flatten_cons, List.map_append, List.sum_append, ih, htotal, List.length_cons]
      simp only [cellPieces, List.map_cons, List.map_nil, List.sum_cons, List.sum_nil, hblank, hbehind, hblanks]
      omega
  rw [linePieces, List.map_cons, List.sum_cons, hcells, hfirst, overhead]
  omega

/-! ### The table as it is drawn -/

/-- What is taken for granted of the texts of a table: a line is as wide as its pieces are together, a bold
header is as wide as a bare one, and what is cut to a column is not wider than the column. -/
structure Measured (table : Table) (coloured : Bool) (maxWidth : Nat) : Prop where
  /-- Width is additive over the pieces of a line. -/
  additive : ∀ cells ∈ table.cellLines coloured, displayWidth (linePieces (table.widths maxWidth) cells).flatten =
    ((linePieces (table.widths maxWidth) cells).map displayWidth).sum
  /-- Styling takes no columns. -/
  styled : ∀ header ∈ table.headers,
    displayWidth (Text.Style.strong.apply coloured header).toList = displayWidth header.toList
  /-- A text that is cut takes no more than the columns that it is cut to. -/
  cut : ∀ cells ∈ table.cellLines coloured,
    ∀ column ∈ cells.zip (table.widths maxWidth), Fits (truncate column.1 column.2 "...".toList) column.2

/-- The lines of a table. -/
def drawn (table : Table) (coloured : Bool) (widths : List Nat) : List (List Char) :=
  ruleCharacters '┌' '┬' '┐' widths ::
    (linePieces widths (table.headers.map fun header ↦ (Text.Style.strong.apply coloured header).toList)).flatten ::
    ruleCharacters '├' '┼' '┤' widths ::
    (table.rows.map fun row ↦ (linePieces widths (row.map flatten)).flatten) ++ [ruleCharacters '└' '┴' '┘' widths]

theorem toList_render (h : table.headers ≠ []) : (table.render coloured maxWidth).toList =
    (table.drawn coloured (table.widths maxWidth)).flatMap (· ++ ['\n']) := by
  generalize hwidths : table.widths maxWidth = widths
  have htop : (rule "┌" "┬" "┐" widths).toList = ruleCharacters '┌' '┬' '┐' widths ++ ['\n'] :=
    toList_rule rfl rfl rfl widths
  have hmid : (rule "├" "┼" "┤" widths).toList = ruleCharacters '├' '┼' '┤' widths ++ ['\n'] :=
    toList_rule rfl rfl rfl widths
  have hbottom : (rule "└" "┴" "┘" widths).toList = ruleCharacters '└' '┴' '┘' widths ++ ['\n'] :=
    toList_rule rfl rfl rfl widths
  have hrows : (String.join (table.rows.map fun row ↦ line widths (row.map flatten))).toList =
      (table.rows.map fun row ↦ (linePieces widths (row.map flatten)).flatten).flatMap (· ++ ['\n']) := by
    simp only [String.toList_join, List.flatMap_map, toList_line]
  have hempty : table.headers.isEmpty = false := by simpa using h
  rw [render, hempty, if_neg Bool.false_ne_true, hwidths]
  simp only [String.toList_append, toList_line, hrows, htop, hmid, hbottom, drawn, List.cons_append,
    List.flatMap_cons, List.flatMap_append, List.flatMap_nil, List.append_nil, List.append_assoc]

/-- A line is a rule or a line of cells. -/
theorem mem_drawn (h : cs ∈ table.drawn coloured widths) :
    (∃ left mid right, Single left ∧ Single mid ∧ Single right ∧ cs = ruleCharacters left mid right widths) ∨
      ∃ cells ∈ table.cellLines coloured, cs = (linePieces widths cells).flatten := by
  simp only [drawn, List.cons_append, List.mem_cons, List.mem_append, List.mem_map, List.not_mem_nil,
    or_false] at h
  rcases h with rfl | rfl | rfl | ⟨row, hrow, rfl⟩ | rfl
  · exact Or.inl ⟨_, _, _, by decide +kernel, by decide +kernel, by decide +kernel, rfl⟩
  · exact Or.inr ⟨_, List.mem_cons_self, rfl⟩
  · exact Or.inl ⟨_, _, _, by decide +kernel, by decide +kernel, by decide +kernel, rfl⟩
  · exact Or.inr ⟨_, List.mem_cons_of_mem _ (List.mem_map_of_mem hrow), rfl⟩
  · exact Or.inl ⟨_, _, _, by decide +kernel, by decide +kernel, by decide +kernel, rfl⟩

/-- Each line is as wide as the columns and what is between them. -/
theorem displayWidth_of_mem_drawn (h : Measured table coloured maxWidth) (hne : table.headers ≠ [])
    (hrows : ∀ row ∈ table.rows, row.length = table.headers.length)
    (hcs : cs ∈ table.drawn coloured (table.widths maxWidth)) :
    displayWidth cs = overhead table.headers.length + total (table.widths maxWidth) := by
  have hlength := length_widths hrows maxWidth
  rcases mem_drawn hcs with ⟨left, mid, right, hleft, hmid, hright, rfl⟩ | ⟨cells, hcells, rfl⟩
  · obtain ⟨hsingle, hrule⟩ := ruleCharacters_spec hleft hmid hright (widths_ne_nil hrows hne maxWidth)
    rw [(Text.spans_of_single hsingle).displayWidth_eq, hrule, hlength]
  · have hfits := fits_naturalWidths hrows h.styled cells hcells
    rw [h.additive cells hcells, sum_linePieces, hlength]
    exact List.forall₂_iff_zip.2 ⟨hfits.length_eq.trans ((length_naturalWidths hrows).trans hlength.symm),
      fun {cs width} hcolumn ↦ h.cut cells hcells (cs, width) hcolumn⟩

/-- A cell is drawn with its own characters and with blanks, dots and bars. -/
theorem mem_cellPieces {c : Char} (h : c ∈ (cellPieces width cs).flatten) : c ∈ " │.".toList ∨ c ∈ cs := by
  have hdots : "...".toList ⊆ " │.".toList := by decide
  have hbar : " │".toList ⊆ " │.".toList := by decide
  simp only [cellPieces, List.flatten_cons, List.flatten_nil, List.append_nil, List.mem_append,
    List.mem_singleton] at h
  rcases h with rfl | hshown | hpadding | hbehind
  · exact Or.inl (by decide)
  · exact (Text.mem_of_mem_truncate hshown).symm.imp_left (hdots ·)
  · exact Or.inl (List.eq_of_mem_replicate hpadding ▸ by decide)
  · exact Or.inl (hbar hbehind)

theorem mem_linePieces {c : Char} (h : c ∈ (linePieces widths cells).flatten) :
    c ∈ " │.".toList ∨ ∃ cs ∈ cells, c ∈ cs := by
  have hbar : "  │".toList ⊆ " │.".toList := by decide
  rw [linePieces, List.flatten_cons, List.mem_append] at h
  refine h.elim (fun h ↦ Or.inl (hbar h)) fun hcells ↦ ?_
  clear h
  induction widths generalizing cells with
  | nil => cases hcells
  | cons width widths ih =>
    cases cells with
    | nil => cases hcells
    | cons cs cells =>
      rw [List.zipWith_cons_cons, List.flatten_cons, List.flatten_append, List.mem_append] at hcells
      rcases hcells with hcell | hcells
      · exact (mem_cellPieces hcell).imp_right fun hc ↦ ⟨cs, List.mem_cons_self, hc⟩
      · exact (ih hcells).imp_right fun ⟨other, hother, hc⟩ ↦ ⟨other, List.mem_cons_of_mem _ hother, hc⟩

/-- A line of cells ends in a bar, as each cell does and what stands before the first one. -/
theorem suffix_linePieces (widths : List Nat) (cells : List (List Char)) :
    ['│'] <:+ (linePieces widths cells).flatten := by
  have hcells (before : List Char) (h : ['│'] <:+ before) :
      ['│'] <:+ before ++ (List.zipWith cellPieces widths cells).flatten.flatten := by
    induction widths generalizing cells before with
    | nil => simpa using h
    | cons width widths ih =>
      cases cells with
      | nil => simpa using h
      | cons cs cells =>
        rw [List.zipWith_cons_cons, List.flatten_cons, List.flatten_append, ← List.append_assoc]
        refine ih cells _ ?_
        have hbehind : ['│'] <:+ " │".toList := by decide
        refine hbehind.trans ?_
        simp only [cellPieces, List.flatten_cons, List.flatten_nil, List.append_nil]
        simp only [← List.append_assoc]
        exact List.suffix_append _ _
  exact hcells "  │".toList (by decide)

/-- No line is broken, and none ends in a carriage return. -/
theorem unbroken_of_mem_drawn (hbreak : ∀ header ∈ table.headers, '\n' ∉ header.toList) (hwidths : widths ≠ [])
    (hcs : cs ∈ table.drawn coloured widths) : '\n' ∉ cs ∧ cs.getLast? ≠ some '\r' := by
  have hcells : ∀ cells ∈ table.cellLines coloured, ∀ cs ∈ cells, '\n' ∉ cs := by
    refine List.forall_mem_cons.2 ⟨fun cs hcs hmem ↦ ?_, fun cells hcells cs hcs hmem ↦ ?_⟩
    · obtain ⟨header, hheader, rfl⟩ := List.mem_map.1 hcs
      exact (Text.mem_of_mem_strong hmem).elim (hbreak header hheader) (by decide)
    · obtain ⟨row, -, rfl⟩ := List.mem_map.1 hcells
      obtain ⟨cell, -, rfl⟩ := List.mem_map.1 hcs
      obtain ⟨c, -, hc⟩ := List.mem_map.1 hmem
      split at hc
      · cases hc
      · next hplain => simp [hc] at hplain
  rcases mem_drawn hcs with ⟨left, mid, right, hleft, hmid, hright, rfl⟩ | ⟨cells, hmem, rfl⟩
  · have hsingle := (ruleCharacters_spec hleft hmid hright hwidths).1
    exact ⟨fun hfeed ↦ absurd (hsingle _ hfeed) (by decide +kernel),
      fun hreturn ↦ absurd (hsingle _ (List.mem_of_getLast? hreturn)) (by decide +kernel)⟩
  · refine ⟨fun hfeed ↦ ?_, ?_⟩
    · rcases mem_linePieces hfeed with hdrawn | ⟨cs, hcs, hc⟩
      · exact absurd hdrawn (by decide)
      · exact hcells cells hmem cs hcs hc
    · obtain ⟨before, hbefore⟩ := suffix_linePieces widths cells
      rw [← hbefore, List.getLast?_concat]
      decide

theorem lines_render (hne : table.headers ≠ []) (hbreak : ∀ header ∈ table.headers, '\n' ∉ header.toList)
    (hrows : ∀ row ∈ table.rows, row.length = table.headers.length) :
    Text.lines (table.render coloured maxWidth).toList = table.drawn coloured (table.widths maxWidth) := by
  have hwidths := widths_ne_nil hrows hne maxWidth
  rw [toList_render hne]
  exact Text.lines_ended (fun _ hcs ↦ (unbroken_of_mem_drawn hbreak hwidths hcs).1)
    fun _ hcs ↦ (unbroken_of_mem_drawn hbreak hwidths hcs).2

/-! ### Tables of single columns -/

/-- The pieces of a line are texts of single columns and codes if what is shown of its cells is. -/
theorem exists_spans_of_mem_linePieces
    (h : List.Forall₂ (fun cs width ↦ ∃ n, Spans (truncate cs width "...".toList) n) cells widths) :
    ∀ piece ∈ linePieces widths cells, ∃ n, Spans piece n := by
  have hfixed {cs : List Char} (h : ∀ c ∈ cs, Single c) : ∃ n, Spans cs n := ⟨_, Text.spans_of_single h⟩
  refine List.forall_mem_cons.2 ⟨hfixed (single_of_all (by decide +kernel)), ?_⟩
  induction h with
  | nil => exact List.forall_mem_nil _
  | cons hshown _ ih =>
    rw [List.zipWith_cons_cons, List.flatten_cons, List.forall_mem_append]
    refine ⟨?_, ih⟩
    simp only [cellPieces, List.forall_mem_cons]
    exact ⟨hfixed (single_of_all (by decide +kernel)), hshown,
      hfixed fun c hc ↦ List.eq_of_mem_replicate hc ▸ (by decide +kernel : Single ' '),
      hfixed (single_of_all (by decide +kernel)), List.forall_mem_nil _⟩

/-- What is taken for granted holds of tables with texts of single columns. A column that cuts anything has
been narrowed, so there is room for the dots. -/
theorem measured_of_single (hrows : ∀ row ∈ table.rows, row.length = table.headers.length)
    (hheaders : ∀ header ∈ table.headers, ∀ c ∈ header.toList, Single c)
    (hcells : ∀ row ∈ table.rows, ∀ cell ∈ row, ∀ c ∈ flatten cell, Single c) (coloured : Bool) (maxWidth : Nat) :
    Measured table coloured maxWidth := by
  have hstyled : ∀ header ∈ table.headers,
      displayWidth (Text.Style.strong.apply coloured header).toList = displayWidth header.toList := by
    intro header hheader
    have hsingle := hheaders header hheader
    rw [(Text.spans_strong coloured hsingle).displayWidth_eq, (Text.spans_of_single hsingle).displayWidth_eq]
  have hspans : ∀ cells ∈ table.cellLines coloured, ∀ cs ∈ cells, ∃ n, Spans cs n := by
    refine List.forall_mem_cons.2 ⟨fun cs hcs ↦ ?_, fun cells hmem cs hcs ↦ ?_⟩
    · obtain ⟨header, hheader, rfl⟩ := List.mem_map.1 hcs
      exact ⟨_, Text.spans_strong coloured (hheaders header hheader)⟩
    · obtain ⟨row, hrow, rfl⟩ := List.mem_map.1 hmem
      obtain ⟨cell, hcell, rfl⟩ := List.mem_map.1 hcs
      exact ⟨_, Text.spans_of_single (hcells row hrow cell hcell)⟩
  have hshown : ∀ cells ∈ table.cellLines coloured, List.Forall₂ (fun cs width ↦ ∃ n ≤ width,
      Spans (truncate cs width "...".toList) n) cells (table.widths maxWidth) := by
    intro cells hmem
    have hfits := fits_naturalWidths hrows hstyled cells hmem
    have hnarrowed := forall₂_comp hfits (narrowing_widths hrows maxWidth).evenly
    refine List.forall₂_iff_zip.2 ⟨hnarrowed.length_eq, fun {cs width} hcolumn ↦ ?_⟩
    obtain ⟨n, hcs⟩ := hspans cells hmem cs (List.of_mem_zip hcolumn).1
    obtain ⟨natural, hnatural, hwidth⟩ := List.forall₂_zip hnarrowed hcolumn
    by_cases hwide : n ≤ width
    · exact ⟨n, hwide, by rwa [Text.truncate_of_fits (Nat.le_trans (Nat.le_of_eq hcs.displayWidth_eq) hwide)]⟩
    · have hge := hwidth.ge
      rw [Fits, hcs.displayWidth_eq] at hnatural
      rw [leastWidth] at hge
      have hroom : "...".toList.length ≤ width := by
        have hdots : "...".toList.length = 3 := by decide
        omega
      exact hcs.exists_truncate (single_of_all (by decide +kernel)) hroom
  refine ⟨fun cells hmem ↦ ?_, hstyled, fun cells hmem column hcolumn ↦ ?_⟩
  · refine (Text.spans_flatten (exists_spans_of_mem_linePieces ?_)).displayWidth_eq
    exact (hshown cells hmem).imp fun _ _ ⟨n, _, h⟩ ↦ ⟨n, h⟩
  · obtain ⟨n, hn, hcut⟩ := List.forall₂_zip (hshown cells hmem) (a := column.1) (b := column.2) hcolumn
    rw [Fits, hcut.displayWidth_eq]
    exact hn

/-! ### The layout -/

/-- Whatever is in a table, its columns are narrowed one step at a time until they fit or can be narrowed no
further, none of them below its least width, and evenly. So a table that has to be narrowed takes just what
there is, or what it needs at the least, and fits if it fits with its least widths. With what is taken for
granted of its texts every line of the table as it is drawn takes what its columns take and what is between
them, and no cell is cut in a column that has not been narrowed. -/
theorem layout (headers : List String) (rows : List (List String)) (coloured : Bool) (maxWidth : Nat)
    (hne : headers ≠ []) (hbreak : ∀ header ∈ headers, '\n' ∉ header.toList) :
    let table := ofRows headers rows
    let available := maxWidth - overhead headers.length
    let natural := table.naturalWidths
    let final := table.widths maxWidth
    let least := total (natural.map (min leastWidth))
    Narrowing available natural final ∧ Evenly natural final ∧
      (total natural ≤ available → final = natural) ∧
      (available < total natural → total final = max available least) ∧
      (overhead headers.length + least ≤ maxWidth → overhead headers.length + total final ≤ maxWidth) ∧
      (Measured table coloured maxWidth →
        (∀ cs ∈ Text.lines (table.render coloured maxWidth).toList,
          displayWidth cs = overhead headers.length + total final) ∧
        ∀ cells ∈ table.cellLines coloured, ∀ (i width : Nat) (cs : List Char), natural[i]? = some width →
          final[i]? = some width → cells[i]? = some cs → truncate cs width "...".toList = cs) := by
  intro table available natural final least
  have hheaders : table.headers = headers := headers_ofRows headers rows
  have hrows : ∀ row ∈ table.rows, row.length = table.headers.length := fun row hrow ↦
    (length_of_mem_rows hrow).trans (congrArg List.length hheaders.symm)
  have hnarrowing : Narrowing available natural final := by
    have := narrowing_widths hrows maxWidth
    rwa [hheaders] at this
  refine ⟨hnarrowing, hnarrowing.evenly, hnarrowing.eq_of_fits, fun hwide ↦ ?_, fun hleast ↦ ?_,
    fun hmeasured ↦ ⟨fun cs hcs ↦ ?_, fun cells hcells i width cs hnatural _ hcell ↦ ?_⟩⟩
  · exact (hnarrowing.settles (evenly_self natural) (Nat.le_of_lt hwide)).2
  · have := hnarrowing.total_le (Nat.le_sub_of_add_le' hleast)
    omega
  · rw [lines_render (hheaders ▸ hne) (hheaders ▸ hbreak) hrows] at hcs
    rw [displayWidth_of_mem_drawn hmeasured (hheaders ▸ hne) hrows hcs, hheaders]
  · exact truncate_of_natural (fits_naturalWidths hrows hmeasured.styled cells hcells) hnatural hcell

/-- A table that is too wide for thirty columns. -/
def narrowTable : Table :=
  ofRows ["File", "Kind"] [["a/very/long/path/to/some/file.cpp", "source"], ["ignored"]]

/-- It is narrowed to thirty columns, and all of its lines take these. -/
theorem layout_of_narrowTable : Measured narrowTable true 30 ∧ narrowTable.widths 30 = [15, 6] ∧
    ∀ cs ∈ Text.lines (narrowTable.render true 30).toList, displayWidth cs = 30 := by
  have hsingle {cs : List Char} (h : cs.all (fun c ↦ 0x20 ≤ c.toNat && c.toNat < 0x7F) = true) :
      ∀ c ∈ cs, Single c := fun c hc ↦ by
    obtain ⟨hlow, hhigh⟩ := Bool.and_eq_true_iff.1 (List.all_eq_true.1 h c hc)
    exact Text.single_of_printable (of_decide_eq_true hlow) (of_decide_eq_true hhigh)
  have hheaders : narrowTable.headers = ["File", "Kind"] := by decide +kernel
  have hrows : narrowTable.rows = [["a/very/long/path/to/some/file.cpp", "source"]] := by decide +kernel
  have hmeasured : Measured narrowTable true 30 := by
    refine measured_of_single (by decide +kernel) ?_ ?_ true 30
    · rw [hheaders]
      simp only [List.forall_mem_cons]
      exact ⟨hsingle (by decide), hsingle (by decide), List.forall_mem_nil _⟩
    · rw [hrows]
      simp only [List.forall_mem_cons]
      exact ⟨⟨hsingle (by decide), hsingle (by decide), List.forall_mem_nil _⟩, List.forall_mem_nil _⟩
  have hwidths : narrowTable.widths 30 = [15, 6] := by decide +kernel
  obtain ⟨-, -, -, -, -, hdrawn⟩ := layout ["File", "Kind"]
    [["a/very/long/path/to/some/file.cpp", "source"], ["ignored"]] true 30 (by decide) (by decide)
  have hlines := (hdrawn hmeasured).1
  rw [← narrowTable, hwidths] at hlines
  exact ⟨hmeasured, hwidths, hlines⟩

end Table

end Rebuild
