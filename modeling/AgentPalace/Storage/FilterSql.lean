import AgentPalace.Lib.Sql
import AgentPalace.Storage.Layers

/-!
# The text of a filter

`compileFilterText` is the condition that a filter becomes, as text with the
values of the caller in it; `selects` is what the table makes of the text. Each
part of the text `Means` what its field asks for, whatever the characters of the
values, so the text selects the rows that the filter `Matches`
(`compileFilterText_matches`).
-/

namespace AgentPalace.Lance

open Sql (Expr Token Piece ReadsPrimary ReadsAnd quoted escape)

/-! ## The text -/

/-- `column IN ('a', 'b')`, unless there are no values. -/
def inPart (column : String) (values : List String) : List String :=
  if values = [] then []
  else [column ++ " IN (" ++ ", ".intercalate (values.map quoted) ++ ")"]

/-- `column = 'a'` -/
def eqPart (column : String) (value : Option String) : List String :=
  value.toList.map fun s => column ++ " = " ++ quoted s

def canonicalPart : String := "ingest_mode != 'projects-branch'"

def branchPart (view : String) : String :=
  "(view_name = '" ++ escape view ++ "' OR (view_name IS NULL AND hall = 'view:" ++ escape view ++
    "'))"

def viewPart (filter : DrawerFilter) : List String :=
  if filter.includeAllViews || filter.view == some "full" then []
  else
    match filter.view with
    | none => [canonicalPart]
    | some view =>
      if view = "canonical" then [canonicalPart]
      else if filter.branchViewOnly then [branchPart view]
      else ["(ingest_mode != 'projects-branch' OR " ++ branchPart view ++ ")"]

def filterParts (filter : DrawerFilter) : List String :=
  inPart "id" filter.ids ++ eqPart "wing" filter.wing ++ inPart "wing" filter.wings ++
    eqPart "room" filter.room ++ eqPart "hall" filter.hall ++
    eqPart "source_file" filter.sourceFile ++ inPart "source_file" filter.sourceFiles ++
    viewPart filter

/-- `compile_filter`. -/
def compileFilterText (filter : DrawerFilter) : String := " AND ".intercalate (filterParts filter)

/-! ## The table -/

/-- The text columns; those that may be absent are `hall`, `extract_mode` and `view_name`. -/
def columnNames : List String :=
  ["id", "wing", "room", "hall", "source_file", "ingest_mode", "extract_mode", "added_by",
    "content", "content_hash", "view_name"]

def textColumn (row : DrawerRow) (column : String) : Option String :=
  if column = "id" then some row.id
  else if column = "wing" then some row.wing
  else if column = "room" then some row.room
  else if column = "hall" then row.hall
  else if column = "source_file" then some row.sourceFile
  else if column = "ingest_mode" then some row.ingestMode
  else if column = "extract_mode" then row.extractMode
  else if column = "added_by" then some row.addedBy
  else if column = "content" then some row.content
  else if column = "content_hash" then some row.contentHash
  else if column = "view_name" then row.viewName
  else none

/-- Whether a query with this condition finds a row; `none` is an error of the
query. An empty text is no condition. -/
def selects (text : String) (row : DrawerRow) : Option Bool :=
  if text = "" then some true
  else do
    let e ← Sql.parse text
    if e.columns.all (columnNames.contains ·) then
      return e.eval (textColumn row) == some true
    else none

/-! ## What a filter asks for -/

def Visible (filter : DrawerFilter) (row : DrawerRow) : Prop :=
  if filter.includeAllViews = true ∨ filter.view = some "full" then True
  else
    match filter.view with
    | none => row.ingestMode ≠ "projects-branch"
    | some view =>
      if view = "canonical" then row.ingestMode ≠ "projects-branch"
      else (filter.branchViewOnly = false ∧ row.ingestMode ≠ "projects-branch") ∨
        row.viewName = some view ∨ row.viewName = none ∧ row.hall = some ("view:" ++ view)

structure Matches (filter : DrawerFilter) (row : DrawerRow) : Prop where
  ids : filter.ids ≠ [] → row.id ∈ filter.ids
  wing : ∀ wing ∈ filter.wing, row.wing = wing
  wings : filter.wings ≠ [] → row.wing ∈ filter.wings
  room : ∀ room ∈ filter.room, row.room = room
  hall : ∀ hall ∈ filter.hall, row.hall = some hall
  sourceFile : ∀ file ∈ filter.sourceFile, row.sourceFile = file
  sourceFiles : filter.sourceFiles ≠ [] → row.sourceFile ∈ filter.sourceFiles
  visible : Visible filter row

/-! ## What the parts mean -/

/-- A part of a text that is one condition, true of the rows with `P`. -/
structure Means (text : String) (P : DrawerRow → Prop) : Prop where
  head : text.toList.head? ≠ some '\''
  reads : ∃ ts e, Piece text ts ∧ ReadsPrimary ts e ∧ (∀ c ∈ e.columns, c ∈ columnNames) ∧
    ∀ row, e.eval (textColumn row) = some true ↔ P row

theorem Means.congr {text : String} {P Q : DrawerRow → Prop} (h : Means text P)
    (hiff : ∀ row, P row ↔ Q row) : Means text Q := by
  obtain ⟨hhead, ts, e, hpiece, hreads, hcolumns, heval⟩ := h
  exact ⟨hhead, ts, e, hpiece, hreads, hcolumns, fun row => (heval row).trans (hiff row)⟩

theorem head_append {front text : String} (h : front.toList.head? ≠ some '\'')
    (hne : front.toList ≠ []) : (front ++ text).toList.head? ≠ some '\'' := by
  rw [String.toList_append]
  cases hfront : front.toList with
  | nil => exact absurd hfront hne
  | cons c cs =>
    rw [hfront] at h
    exact h

section
variable {column : String} (hcolumn : column ∈ columnNames)
include hcolumn

theorem means_eq (s : String) (hhead : (column ++ " = ").toList.head? ≠ some '\'')
    (hlex : Sql.lexRun .idle (column ++ " = ").toList = some (.idle, [.ident column, .eq])) :
    Means (column ++ " = " ++ quoted s) fun row => textColumn row column = some s where
  head := head_append hhead (by simp)
  reads := by
    refine ⟨_, _, Piece.prefixed hlex (Sql.piece_quoted s), Sql.readsPrimary_eq column s, ?_,
      fun row => Expr.eval_eq⟩
    rintro c hc
    rw [List.mem_singleton.1 hc]
    exact hcolumn

theorem means_in (s : String) (values : List String)
    (hhead : (column ++ " IN (").toList.head? ≠ some '\'')
    (hlex : Sql.lexRun .idle (column ++ " IN (").toList =
      some (.idle, [.ident column, .kwIn, .lparen])) :
    Means (column ++ " IN (" ++ ", ".intercalate ((s :: values).map quoted) ++ ")")
      fun row => ∃ t ∈ s :: values, textColumn row column = some t where
  head := by
    rw [String.append_assoc]
    exact head_append hhead (by simp)
  reads := by
    have hclose : Piece ")" [.rparen] := .of_idle rfl
    refine ⟨_, _, (Piece.prefixed hlex (Sql.piece_list s values)).append hclose (by decide),
      Sql.readsPrimary_inList column s values, ?_, fun row => Expr.eval_inList⟩
    rintro c hc
    rw [List.mem_singleton.1 hc]
    exact hcolumn

end

theorem means_canonical : Means canonicalPart fun row => row.ingestMode ≠ "projects-branch" where
  head := by decide
  reads := by
    refine ⟨[.ident "ingest_mode", .ne, .lit "projects-branch"], _,
      ⟨.quote "projects-branch".toList.reverse, [.ident "ingest_mode", .ne], _, rfl, rfl,
        nofun, rfl⟩,
      Sql.readsPrimary_ne _ _, by decide, fun row => ?_⟩
    rw [Expr.eval_ne]
    simp [textColumn]

theorem means_paren {front middle : String} {P Q : DrawerRow → Prop} (hfront : Means front P)
    (hmiddle : Means middle Q) :
    Means ("(" ++ front ++ " OR " ++ middle ++ ")") fun row => P row ∨ Q row where
  head := by
    rw [String.append_assoc, String.append_assoc, String.append_assoc]
    exact head_append (by decide) (by decide)
  reads := by
    obtain ⟨-, ts, e, hpiece, hreads, hcolumns, heval⟩ := hfront
    obtain ⟨hhead, us, e', hpiece', hreads', hcolumns', heval'⟩ := hmiddle
    have hor : Piece " OR " [.kwOr] := .of_idle rfl
    have hclose : Piece ")" [.rparen] := .of_idle rfl
    have hopen : Piece ("(" ++ front) ([.lparen] ++ ts) := Piece.prefixed rfl hpiece
    have hwhole := ((hopen.append hor (by decide)).append hpiece' hhead).append hclose (by decide)
    refine ⟨_, .or e e', hwhole, ?_, ?_, fun row => ?_⟩
    · have h := (hreads.and.orElse hreads'.and.or).paren
      simpa only [List.append_assoc] using h
    · intro c hc
      rcases List.mem_append.1 hc with hc | hc
      · exact hcolumns c hc
      · exact hcolumns' c hc
    · rw [Expr.eval_or, heval, heval']

/-- A row without a view name, by the hall that stood for it. -/
theorem means_legacy (hall : String) :
    Means ("(view_name IS NULL AND " ++ ("hall = " ++ quoted hall) ++ ")") fun row =>
      row.viewName = none ∧ row.hall = some hall where
  head := by
    rw [String.append_assoc]
    exact head_append (by decide) (by decide)
  reads := by
    have hclose : Piece ")" [.rparen] := .of_idle rfl
    have hhall : Piece ("hall = " ++ quoted hall) ([.ident "hall", .eq] ++ [.lit hall]) :=
      Piece.prefixed rfl (Sql.piece_quoted hall)
    have hopen : Piece ("(view_name IS NULL AND " ++ ("hall = " ++ quoted hall))
        ([.lparen, .ident "view_name", .kwIs, .kwNull, .kwAnd] ++
          ([.ident "hall", .eq] ++ [.lit hall])) := Piece.prefixed rfl hhall
    refine ⟨_, .and (.isNull "view_name") (.eq "hall" hall), hopen.append hclose (by decide),
      ?_, ?_, fun row => ?_⟩
    · exact ((Sql.readsPrimary_isNull "view_name").andThen
        (Sql.readsPrimary_eq "hall" hall).and).or.paren
    · rintro c hc
      rcases List.mem_append.1 hc with hc | hc <;> rw [List.mem_singleton.1 hc] <;> decide
    · rw [Expr.eval_and, Expr.eval_isNull, Expr.eval_eq]
      rfl

theorem branchPart_eq (view : String) :
    branchPart view = "(" ++ ("view_name = " ++ quoted view) ++ " OR " ++
      ("(view_name IS NULL AND " ++ ("hall = " ++ quoted ("view:" ++ view)) ++ ")") ++ ")" := by
  have hview : escape "view:" = "view:" := by decide
  simp only [branchPart, quoted, Sql.escape_append, hview, ← String.toList_inj,
    String.toList_append]
  simp

theorem means_branch (view : String) : Means (branchPart view) fun row =>
    row.viewName = some view ∨ row.viewName = none ∧ row.hall = some ("view:" ++ view) := by
  have hname : Means ("view_name = " ++ quoted view) fun row => row.viewName = some view :=
    means_eq (by decide : "view_name" ∈ columnNames) view (by decide) rfl
  rw [branchPart_eq]
  exact means_paren hname (means_legacy _)

/-! ## The whole text -/

inductive PartsMean : List String → (DrawerRow → Prop) → Prop where
  | nil : PartsMean [] fun _ => True
  | cons {text : String} {texts : List String} {P Q : DrawerRow → Prop} (h : Means text P)
      (hs : PartsMean texts Q) : PartsMean (text :: texts) fun row => P row ∧ Q row

theorem PartsMean.congr {texts : List String} {P Q : DrawerRow → Prop} (h : PartsMean texts P)
    (hiff : ∀ row, P row ↔ Q row) : PartsMean texts Q := by
  rwa [← funext fun row => propext (hiff row)]

theorem PartsMean.of_nil {P : DrawerRow → Prop} (h : PartsMean [] P) (row : DrawerRow) : P row := by
  cases h
  trivial

theorem PartsMean.append {texts more : List String} {P Q : DrawerRow → Prop}
    (h : PartsMean texts P) (h' : PartsMean more Q) :
    PartsMean (texts ++ more) fun row => P row ∧ Q row := by
  induction h with
  | nil => exact h'.congr fun row => (true_and _).symm ▸ Iff.rfl
  | cons hp _ ih => exact (PartsMean.cons hp ih).congr fun row => and_assoc.symm

theorem partsMean_eq {column : String} (hcolumn : column ∈ columnNames) (value : Option String)
    (hhead : (column ++ " = ").toList.head? ≠ some '\'')
    (hlex : Sql.lexRun .idle (column ++ " = ").toList = some (.idle, [.ident column, .eq])) :
    PartsMean (eqPart column value) fun row => ∀ s ∈ value, textColumn row column = some s := by
  cases value with
  | none => exact PartsMean.nil.congr fun row => by simp
  | some s =>
    exact (PartsMean.cons (means_eq hcolumn s hhead hlex) .nil).congr fun row => by simp

theorem partsMean_in {column : String} (hcolumn : column ∈ columnNames) (values : List String)
    (hhead : (column ++ " IN (").toList.head? ≠ some '\'')
    (hlex : Sql.lexRun .idle (column ++ " IN (").toList =
      some (.idle, [.ident column, .kwIn, .lparen])) :
    PartsMean (inPart column values) fun row =>
      values ≠ [] → ∃ s ∈ values, textColumn row column = some s := by
  cases values with
  | nil => exact PartsMean.nil.congr fun row => by simp
  | cons s values =>
    exact (PartsMean.cons (means_in hcolumn s values hhead hlex) .nil).congr fun row => by simp

theorem partsMean_view (filter : DrawerFilter) :
    PartsMean (viewPart filter) fun row => Visible filter row := by
  have hone {text : String} {P : DrawerRow → Prop} (h : Means text P) : PartsMean [text] P :=
    (PartsMean.cons h .nil).congr fun row => by rw [and_true]
  unfold viewPart Visible
  by_cases hfull : filter.includeAllViews = true ∨ filter.view = some "full"
  · rw [if_pos (by simpa using hfull)]
    exact PartsMean.nil.congr fun row => by rw [if_pos hfull]
  · rw [if_neg (by simpa using hfull)]
    simp only [if_neg hfull]
    cases filter.view with
    | none => exact hone means_canonical
    | some view =>
      by_cases hcanonical : view = "canonical"
      · simp only [if_pos hcanonical]
        exact hone means_canonical
      · simp only [if_neg hcanonical]
        cases hbranch : filter.branchViewOnly with
        | true => exact hone ((means_branch view).congr fun row => by simp)
        | false =>
          exact hone ((means_paren means_canonical (means_branch view)).congr fun row => by simp)

theorem partsMean_filter (filter : DrawerFilter) :
    PartsMean (filterParts filter) fun row => Matches filter row := by
  have hids := partsMean_in (by decide : "id" ∈ columnNames) filter.ids (by decide) rfl
  have hwing := partsMean_eq (by decide : "wing" ∈ columnNames) filter.wing (by decide) rfl
  have hwings := partsMean_in (by decide : "wing" ∈ columnNames) filter.wings (by decide) rfl
  have hroom := partsMean_eq (by decide : "room" ∈ columnNames) filter.room (by decide) rfl
  have hhall := partsMean_eq (by decide : "hall" ∈ columnNames) filter.hall (by decide) rfl
  have hfile := partsMean_eq (by decide : "source_file" ∈ columnNames) filter.sourceFile
    (by decide) rfl
  have hfiles := partsMean_in (by decide : "source_file" ∈ columnNames) filter.sourceFiles
    (by decide) rfl
  refine (((((((hids.append hwing).append hwings).append hroom).append hhall).append hfile).append
    hfiles).append (partsMean_view filter)).congr fun row => ?_
  constructor
  · rintro ⟨⟨⟨⟨⟨⟨⟨h1, h2⟩, h3⟩, h4⟩, h5⟩, h6⟩, h7⟩, h8⟩
    exact ⟨by simpa [textColumn] using h1, by simpa [textColumn] using h2,
      by simpa [textColumn] using h3, by simpa [textColumn] using h4,
      by simpa [textColumn] using h5, by simpa [textColumn] using h6,
      by simpa [textColumn] using h7, h8⟩
  · rintro ⟨h1, h2, h3, h4, h5, h6, h7, h8⟩
    exact ⟨⟨⟨⟨⟨⟨⟨by simpa [textColumn] using h1, by simpa [textColumn] using h2⟩,
      by simpa [textColumn] using h3⟩, by simpa [textColumn] using h4⟩,
      by simpa [textColumn] using h5⟩, by simpa [textColumn] using h6⟩,
      by simpa [textColumn] using h7⟩, h8⟩

/-- Parts joined by `AND` are read as all of them. -/
theorem joined_reads {text : String} {texts : List String} {P : DrawerRow → Prop}
    (h : PartsMean (text :: texts) P) :
    ∃ ts e, Piece (" AND ".intercalate (text :: texts)) ts ∧ ReadsAnd ts e ∧
      (" AND ".intercalate (text :: texts)).toList.head? ≠ some '\'' ∧
      (∀ c ∈ e.columns, c ∈ columnNames) ∧
      ∀ row, e.eval (textColumn row) = some true ↔ P row := by
  induction texts generalizing text P with
  | nil =>
    cases h with
    | cons hp hs =>
      cases hs
      obtain ⟨hhead, ts, e, hpiece, hreads, hcolumns, heval⟩ := hp
      refine ⟨ts, e, by simpa using hpiece, hreads.and, by simpa using hhead, hcolumns, ?_⟩
      exact fun row => ⟨fun h => ⟨(heval row).1 h, trivial⟩, fun h => (heval row).2 h.1⟩
  | cons more texts ih =>
    cases h with
    | cons hp hs =>
      obtain ⟨hhead, ts, e, hpiece, hreads, hcolumns, heval⟩ := hp
      obtain ⟨us, e', hpiece', hreads', hhead', hcolumns', heval'⟩ := ih hs
      have hand : Piece " AND " [.kwAnd] := .of_idle rfl
      rw [String.intercalate_cons_cons]
      refine ⟨_, .and e e', (hpiece.append hand (by decide)).append hpiece' hhead',
        hreads.andThen hreads', ?_, ?_, fun row => ?_⟩
      · rw [String.append_assoc, String.toList_append]
        cases htext : text.toList with
        | nil => simp
        | cons c cs =>
          rw [htext] at hhead
          exact hhead
      · intro c hc
        rcases List.mem_append.1 hc with hc | hc
        · exact hcolumns c hc
        · exact hcolumns' c hc
      · rw [Expr.eval_and, heval, heval']

theorem text_matches (filter : DrawerFilter) (row : DrawerRow) :
    ∃ found, selects (compileFilterText filter) row = some found ∧
      (found = true ↔ Matches filter row) := by
  have hparts := partsMean_filter filter
  unfold compileFilterText selects
  cases htexts : filterParts filter with
  | nil =>
    rw [htexts] at hparts
    exact ⟨true, rfl, iff_of_true rfl (hparts.of_nil row)⟩
  | cons text texts =>
    rw [htexts] at hparts
    obtain ⟨ts, e, hpiece, hreads, -, hcolumns, heval⟩ := joined_reads hparts
    have hne : " AND ".intercalate (text :: texts) ≠ "" := by
      intro hempty
      have hlex := hpiece.lex
      rw [hempty] at hlex
      cases hlex
      cases hreads 1 [] (Nat.le_refl 1) nofun
    have hknown : e.columns.all (columnNames.contains ·) = true := by
      rw [List.all_eq_true]
      exact fun c hc => List.contains_iff_mem.2 (hcolumns c hc)
    refine ⟨e.eval (textColumn row) == some true, ?_, ?_⟩
    · rw [if_neg hne, Sql.parse_of_readsAnd hpiece hreads]
      simp only [Option.bind_eq_bind, Option.bind_some, hknown, if_true, Option.pure_def]
    · rw [beq_iff_eq, heval row]

theorem isEmpty_or_contains {values : List String} {s : String} :
    (values.isEmpty || values.contains s) = true ↔ (values ≠ [] → s ∈ values) := by
  cases values <;> simp

theorem visible_iff (filter : DrawerFilter) (row : DrawerRow) :
    (if filter.includeAllViews || filter.view == some "full" then true
      else
        match filter.view with
        | none => row.ingestMode != "projects-branch"
        | some view =>
          if view = "canonical" then row.ingestMode != "projects-branch"
          else if filter.branchViewOnly then branchPredicate view row
          else row.ingestMode != "projects-branch" || branchPredicate view row) = true ↔
      Visible filter row := by
  unfold Visible
  by_cases hfull : filter.includeAllViews = true ∨ filter.view = some "full"
  · rw [if_pos (by simpa using hfull), if_pos hfull]
    exact iff_of_true rfl trivial
  · rw [if_neg (by simpa using hfull), if_neg hfull]
    cases filter.view with
    | none => simp
    | some view =>
      by_cases hcanonical : view = "canonical"
      · simp [hcanonical]
      · simp only [if_neg hcanonical]
        cases filter.branchViewOnly <;> simp [branchPredicate]

theorem compileFilter_matches (filter : DrawerFilter) (row : DrawerRow) :
    compileFilter filter row = true ↔ Matches filter row := by
  unfold compileFilter
  rw [Bool.and_eq_true]
  refine Iff.trans (and_congr_right' (visible_iff filter row)) ?_
  simp only [Bool.and_eq_true, isEmpty_or_contains, Option.all_eq_true, beq_iff_eq]
  constructor
  · rintro ⟨⟨⟨⟨⟨⟨⟨h1, h2⟩, h3⟩, h4⟩, h5⟩, h6⟩, h7⟩, h8⟩
    exact ⟨h1, fun s hs => (h2 s hs).symm, h3, fun s hs => (h4 s hs).symm, h5,
      fun s hs => (h6 s hs).symm, h7, h8⟩
  · rintro ⟨h1, h2, h3, h4, h5, h6, h7, h8⟩
    exact ⟨⟨⟨⟨⟨⟨⟨h1, fun s hs => (h2 s hs).symm⟩, h3⟩, fun s hs => (h4 s hs).symm⟩, h5⟩,
      fun s hs => (h6 s hs).symm⟩, h7⟩, h8⟩

/-- The text of a filter, as SQL with three truth values reads it, finds just the
rows that match the set fields and are shown in the view, as the filter itself does. -/
theorem compileFilterText_matches (filter : DrawerFilter) (row : DrawerRow) :
    ∃ found, selects (compileFilterText filter) row = some found ∧
      (found = true ↔ Matches filter row) ∧ compileFilter filter row = found := by
  obtain ⟨found, hfound, hmatches⟩ := text_matches filter row
  exact ⟨found, hfound, hmatches,
    Bool.eq_iff_iff.2 ((compileFilter_matches filter row).trans hmatches.symm)⟩

end AgentPalace.Lance
