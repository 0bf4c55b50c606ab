import AgentPalace.Storage.Layers

/-!
# The wake-up story

`renderWakeUpAaak` lists the first drawers of the layer order by room, one line
each, and ends early at the character budget. A text is made of lines, and the
number of its characters is counted as they are pushed. Whatever the entries
say, the story is the heading, then rooms with entries that are the first of the
grouped order, and at the end perhaps an ellipsis (`renderWakeUpAaak_fits`).
-/

namespace AgentPalace.WakeUp

open Lance (DrawerRecord compareLayerDrawers)

structure SourceMetadata where
  sourceFile : Option String
  wing : Option String
  room : Option String
  date : Option String

structure Dialect where
  compress : String → SourceMetadata → String

structure WakeUpAaaKConfig where
  maxDrawers : Nat := 15
  maxChars : Nat := 3200

def charCount (text : String) : Nat := text.length

/-- The lines of a text, and the number of its characters. -/
structure Rendered where
  lines : List String := []
  chars : Nat := 0

def pushLine (text : Rendered) (line : String) : Rendered where
  lines := text.lines ++ [line]
  chars := (if text.lines = [] then text.chars else text.chars + 1) + charCount line

def appendedCharCount (existing : Nat) (appended : List String) : Nat :=
  (appended.zipIdx.map fun e =>
    charCount e.1 + if existing = 0 ∧ e.2 = 0 then 0 else 1).sum

def storyHeading : String := "## L1 — AAAK STORY"

def ellipsis : String := "  ... (more in L3 search)"

def roomLines (room : String) : List String := ["", "[" ++ room ++ "]"]

def joinLines (lines : List String) : String := "\n".intercalate lines

/-- `replace('\n', " :: ")`. -/
def replaceNewlines (text : String) : String :=
  String.ofList (text.toList.flatMap fun c => if c = '\n' then " :: ".toList else [c])

def orderDrawers (drawers : List DrawerRecord) : List DrawerRecord :=
  drawers.insertionSort (CmpLE compareLayerDrawers)

namespace Dialect

variable (dialect : Dialect)

def entryLine (record : DrawerRecord) : String :=
  "  - " ++ replaceNewlines (dialect.compress record.content {
    sourceFile := some record.sourceFile
    wing := some record.wing
    room := some record.room
    date := record.date.map Date.text })

/-- The lines of a text that ends here for want of characters. -/
def truncated (maxChars : Nat) (room : String) (roomHasEntries : Bool) (text : Rendered) :
    List String :=
  let roomLinesChars :=
    if roomHasEntries then 0 else appendedCharCount text.lines.length (roomLines room)
  let roomWithEllipsisChars := roomLinesChars +
    appendedCharCount (text.lines.length + (roomLines room).length) [ellipsis]
  let cut :=
    if roomHasEntries = false ∧ text.chars + roomWithEllipsisChars ≤ maxChars then
      (roomLines room).foldl pushLine text
    else text
  if cut.chars + appendedCharCount cut.lines.length [ellipsis] ≤ maxChars then
    (pushLine cut ellipsis).lines
  else text.lines

/-- The drawers of a room. An error is the text that is returned early. -/
def renderRoom (maxChars : Nat) (room : String) :
    List DrawerRecord → Bool → Rendered → Except (List String) Rendered
  | [], _, text => .ok text
  | record :: records, roomHasEntries, text =>
    let entry := dialect.entryLine record
    let roomLinesChars :=
      if roomHasEntries then 0 else appendedCharCount text.lines.length (roomLines room)
    let entryChars := appendedCharCount
      (text.lines.length + if roomHasEntries then 0 else (roomLines room).length) [entry]
    if maxChars < text.chars + roomLinesChars + entryChars then
      .error (truncated maxChars room roomHasEntries text)
    else
      let text := if roomHasEntries then text else (roomLines room).foldl pushLine text
      renderRoom maxChars room records true (pushLine text entry)

def renderRooms (maxChars : Nat) :
    List (String × List DrawerRecord) → Rendered → Except (List String) Rendered
  | [], text => .ok text
  | (room, records) :: rooms, text => do
    let text ← dialect.renderRoom maxChars room records false text
    renderRooms maxChars rooms text

def grouped (maxDrawers : Nat) (drawers : List DrawerRecord) : OrdMap String (List DrawerRecord) :=
  OrdMap.groupBy (·.room) ((orderDrawers drawers).take maxDrawers)

def renderWakeUpAaak (identity : String) (drawers : List DrawerRecord) (config : WakeUpAaaKConfig) :
    String :=
  let identity := trim identity
  if orderDrawers drawers = [] then
    identity ++ "\n\n## L1 — AAAK STORY\nNo memories yet."
  else
    let text := pushLine (pushLine (pushLine {} identity) "") storyHeading
    match dialect.renderRooms config.maxChars (grouped config.maxDrawers drawers).entries text with
    | .ok text => joinLines text.lines
    | .error lines => joinLines lines

end Dialect

/-! ## Counting -/

/-- The count is that of the joined lines, of which there is one. -/
structure Rendered.Counted (text : Rendered) : Prop where
  nonempty : text.lines ≠ []
  chars : text.chars = charCount (joinLines text.lines)

theorem charCount_joinLines {lines : List String} (line : String) (h : lines ≠ []) :
    charCount (joinLines (lines ++ [line])) = charCount (joinLines lines) + 1 + charCount line := by
  unfold joinLines charCount
  rw [String.intercalate_append_of_ne_nil h (by simp), String.intercalate_singleton,
    String.length_append, String.length_append]
  rfl

theorem counted_pushLine {text : Rendered} (h : text.Counted) (line : String) :
    (pushLine text line).Counted where
  nonempty := by simp [pushLine]
  chars := by
    unfold pushLine
    rw [charCount_joinLines line h.nonempty, if_neg h.nonempty, h.chars]

theorem counted_first (line : String) : (pushLine {} line).Counted where
  nonempty := by simp [pushLine]
  chars := by simp [pushLine, joinLines, String.intercalate_singleton]

theorem appendedCharCount_of_pos {existing : Nat} (h : existing ≠ 0) (appended : List String) :
    appendedCharCount existing appended = (appended.map fun line => charCount line + 1).sum := by
  have hone : (fun e : String × Nat =>
      charCount e.1 + if existing = 0 ∧ e.2 = 0 then 0 else 1) =
        (fun line => charCount line + 1) ∘ Prod.fst :=
    funext fun e => by simp [h]
  unfold appendedCharCount
  rw [hone, ← List.map_map, List.zipIdx_map_fst]

/-- The count of lines to append is what appending them counts. -/
theorem foldl_pushLine {text : Rendered} (h : text.Counted) (appended : List String) :
    (appended.foldl pushLine text).Counted ∧
      (appended.foldl pushLine text).lines = text.lines ++ appended ∧
      (appended.foldl pushLine text).chars =
        text.chars + appendedCharCount text.lines.length appended := by
  have hpos : text.lines.length ≠ 0 := mt List.length_eq_zero_iff.1 h.nonempty
  rw [appendedCharCount_of_pos hpos]
  induction appended generalizing text with
  | nil => exact ⟨h, by simp, by simp⟩
  | cons line appended ih =>
    have hpush := counted_pushLine h line
    obtain ⟨hcounted, hlines, hchars⟩ := ih hpush (by simp [pushLine])
    refine ⟨hcounted, ?_, ?_⟩
    · rw [List.foldl_cons, hlines]
      simp [pushLine]
    · rw [List.foldl_cons, hchars]
      simp only [pushLine, if_neg h.nonempty, List.map_cons, List.sum_cons]
      omega

/-! ## What is shown -/

abbrev Section := String × List String

def sectionLines (s : Section) : List String := roomLines s.1 ++ s.2

def storyLines (identity : String) (sections : List Section) : List String :=
  [identity, "", storyHeading] ++ sections.flatMap sectionLines

def opened (done : List Section) (room : String) (entries : List String) : List Section :=
  if entries = [] then done else done ++ [(room, entries)]

/-- The text shows the sections and is within the budget. -/
structure Shows (identity : String) (maxChars : Nat) (sections : List Section) (text : Rendered) :
    Prop where
  lines : text.lines = storyLines identity sections
  counted : text.Counted
  fits : text.chars ≤ maxChars

/-- The lines show the sections and perhaps an ellipsis, and are within the budget. -/
structure Ends (identity : String) (maxChars : Nat) (sections : List Section) (cut : Bool)
    (out : List String) : Prop where
  lines : out = storyLines identity sections ++ if cut then [ellipsis] else []
  fits : charCount (joinLines out) ≤ maxChars

section
variable {identity room : String} {maxChars : Nat} {sections done : List Section}
  {entries : List String} {text : Rendered}

theorem Shows.ends (h : Shows identity maxChars sections text) :
    Ends identity maxChars sections false text.lines where
  lines := by rw [h.lines]; simp
  fits := h.counted.chars ▸ h.fits

theorem Shows.push (h : Shows identity maxChars sections text) (appended : List String)
    (hfits : text.chars + appendedCharCount text.lines.length appended ≤ maxChars)
    {sections' : List Section}
    (hsections : storyLines identity sections ++ appended = storyLines identity sections') :
    Shows identity maxChars sections' (appended.foldl pushLine text) := by
  obtain ⟨hcounted, hlines, hchars⟩ := foldl_pushLine h.counted appended
  exact ⟨by rw [hlines, h.lines, hsections], hcounted, hchars ▸ hfits⟩

theorem Shows.ellipsis (h : Shows identity maxChars sections text)
    (hfits : text.chars + appendedCharCount text.lines.length [ellipsis] ≤ maxChars) :
    Ends identity maxChars sections true (pushLine text ellipsis).lines := by
  obtain ⟨hcounted, hlines, hchars⟩ := foldl_pushLine h.counted [WakeUp.ellipsis]
  refine ⟨hlines.trans (by rw [h.lines]; rfl), ?_⟩
  rw [← hchars] at hfits
  exact hcounted.chars ▸ hfits

theorem storyLines_open (done : List Section) (room : String) :
    storyLines identity done ++ roomLines room = storyLines identity (done ++ [(room, [])]) := by
  simp [storyLines, sectionLines]

theorem storyLines_entry (done : List Section) (room entry : String) (entries : List String) :
    storyLines identity (done ++ [(room, entries)]) ++ [entry] =
      storyLines identity (done ++ [(room, entries ++ [entry])]) := by
  simp [storyLines, sectionLines]

/-- A text that ends early shows what it showed, or the room without an entry
before the ellipsis. -/
theorem truncated_ends (h : Shows identity maxChars (opened done room entries) text) :
    ∃ sections cut, Ends identity maxChars sections cut
        (Dialect.truncated maxChars room (decide (entries ≠ [])) text) ∧
      (sections = opened done room entries ∨
        sections = done ++ [(room, [])] ∧ entries = [] ∧ cut = true) := by
  unfold Dialect.truncated
  have hstay : ∃ cut, Ends identity maxChars (opened done room entries) cut
      (if text.chars + appendedCharCount text.lines.length [WakeUp.ellipsis] ≤ maxChars then
        (pushLine text WakeUp.ellipsis).lines
      else text.lines) := by
    split
    · rename_i hfits
      exact ⟨true, h.ellipsis hfits⟩
    · exact ⟨false, h.ends⟩
  by_cases hentries : entries = []
  · by_cases hroom : text.chars + (appendedCharCount text.lines.length (roomLines room) +
        appendedCharCount (text.lines.length + (roomLines room).length) [WakeUp.ellipsis]) ≤ maxChars
    · have hopened : opened done room entries = done := if_pos hentries
      rw [hopened] at h
      obtain ⟨_, hlines, hchars⟩ := foldl_pushLine h.counted (roomLines room)
      have hshows : Shows identity maxChars (done ++ [(room, [])])
          ((roomLines room).foldl pushLine text) := by
        refine h.push _ ?_ (storyLines_open done room)
        omega
      have hellipsis : ((roomLines room).foldl pushLine text).chars + appendedCharCount
          ((roomLines room).foldl pushLine text).lines.length [WakeUp.ellipsis] ≤ maxChars := by
        rw [hchars, hlines, List.length_append]
        omega
      refine ⟨done ++ [(room, [])], true, ?_, .inr ⟨rfl, hentries, rfl⟩⟩
      simp only [hentries, ne_eq, not_true_eq_false, decide_false, Bool.false_eq_true, if_false,
        true_and, hroom, if_true, hellipsis]
      exact hshows.ellipsis hellipsis
    · obtain ⟨cut, hcut⟩ := hstay
      refine ⟨_, cut, ?_, .inl rfl⟩
      simpa only [hentries, ne_eq, not_true_eq_false, decide_false, Bool.false_eq_true, if_false,
        true_and, hroom] using hcut
  · obtain ⟨cut, hcut⟩ := hstay
    refine ⟨_, cut, ?_, .inl rfl⟩
    simpa only [ne_eq, hentries, not_false_eq_true, decide_true, Bool.true_eq_false, false_and,
      if_false] using hcut

/-- What may be shown when the text ends in a room with more entries to come. -/
def CutIn (done : List Section) (room : String) (entries rest : List String)
    (sections : List Section) (cut : Bool) : Prop :=
  (∃ shown, shown <+: rest ∧ sections = opened done room (entries ++ shown)) ∨
    sections = done ++ [(room, [])] ∧ cut = true

theorem CutIn.cons {entry : String} {rest : List String} {sections : List Section} {cut : Bool}
    (h : CutIn done room (entries ++ [entry]) rest sections cut) :
    CutIn done room entries (entry :: rest) sections cut := by
  rcases h with ⟨shown, hshown, hsections⟩ | h
  · refine .inl ⟨entry :: shown, List.cons_prefix_cons.2 ⟨rfl, hshown⟩, ?_⟩
    rw [hsections, List.append_assoc]
    rfl
  · exact .inr h

/-- An entry that fits is shown, after the line of its room if it is the first. -/
theorem Shows.entry (h : Shows identity maxChars (opened done room entries) text) (entry : String)
    (hfits : text.chars + (if decide (entries ≠ []) then 0 else
        appendedCharCount text.lines.length (roomLines room)) +
      appendedCharCount (text.lines.length + if decide (entries ≠ []) then 0 else
        (roomLines room).length) [entry] ≤ maxChars) :
    Shows identity maxChars (opened done room (entries ++ [entry]))
      (pushLine (if decide (entries ≠ []) then text else (roomLines room).foldl pushLine text)
        entry) := by
  have hnext : opened done room (entries ++ [entry]) = done ++ [(room, entries ++ [entry])] :=
    if_neg (by simp)
  rw [hnext]
  by_cases hentries : entries = []
  · subst hentries
    obtain ⟨_, hlines, hchars⟩ := foldl_pushLine h.counted (roomLines room)
    have hshows : Shows identity maxChars (done ++ [(room, [])])
        ((roomLines room).foldl pushLine text) := by
      have hdone : Shows identity maxChars done text := h
      refine hdone.push _ ?_ (storyLines_open done room)
      simp only [ne_eq, not_true_eq_false, decide_false, Bool.false_eq_true, if_false] at hfits
      omega
    refine hshows.push [entry] ?_ (storyLines_entry done room entry [])
    rw [hchars, hlines, List.length_append]
    exact hfits
  · have hopened : opened done room entries = done ++ [(room, entries)] := if_neg hentries
    rw [hopened] at h
    simp only [ne_eq, hentries, not_false_eq_true, decide_true, if_true, Nat.add_zero] at hfits ⊢
    exact h.push [entry] hfits (storyLines_entry done room entry entries)

theorem renderRoom_shows (dialect : Dialect)
    (h : Shows identity maxChars (opened done room entries) text) (records : List DrawerRecord) :
    (∀ text', dialect.renderRoom maxChars room records (decide (entries ≠ [])) text = .ok text' →
      Shows identity maxChars (opened done room (entries ++ records.map dialect.entryLine)) text') ∧
    ∀ out, dialect.renderRoom maxChars room records (decide (entries ≠ [])) text = .error out →
      ∃ sections cut, Ends identity maxChars sections cut out ∧
        CutIn done room entries (records.map dialect.entryLine) sections cut := by
  induction records generalizing entries text with
  | nil =>
    refine ⟨fun text' heq => ?_, fun out heq => by cases heq⟩
    cases heq
    rwa [List.map_nil, List.append_nil]
  | cons record records ih =>
    have hnonempty : decide (entries ++ [dialect.entryLine record] ≠ []) = true := by simp
    have ih' := fun hfits => ih (h.entry (dialect.entryLine record) hfits)
    rw [hnonempty] at ih'
    unfold Dialect.renderRoom
    dsimp only
    by_cases hover : maxChars < text.chars + (if decide (entries ≠ []) then 0 else
        appendedCharCount text.lines.length (roomLines room)) +
      appendedCharCount (text.lines.length + if decide (entries ≠ []) then 0 else
        (roomLines room).length) [dialect.entryLine record]
    · rw [if_pos hover]
      refine ⟨fun text' heq => (by cases heq), fun out heq => ?_⟩
      cases heq
      obtain ⟨sections, cut, hends, hsections⟩ := truncated_ends h
      refine ⟨sections, cut, hends, ?_⟩
      rcases hsections with hsections | ⟨hsections, _, hcut⟩
      · exact .inl ⟨[], List.nil_prefix, by rw [hsections, List.append_nil]⟩
      · exact .inr ⟨hsections, hcut⟩
    · rw [if_neg hover]
      obtain ⟨hok, herror⟩ := ih' (not_lt.1 hover)
      refine ⟨fun text' heq => ?_, fun out heq => ?_⟩
      · have hshows := hok text' heq
        rwa [List.append_assoc] at hshows
      · obtain ⟨sections, cut, hends, hcut⟩ := herror out heq
        exact ⟨sections, cut, hends, hcut.cons⟩

/-! ## The story -/

/-- The entries of the sections, with their rooms. -/
def shownEntries (sections : List Section) : List (String × String) :=
  sections.flatMap fun s => s.2.map fun entry => (s.1, entry)

/-- The entries of the grouped drawers, with their rooms. -/
def groupedEntries (dialect : Dialect) (rooms : List (String × List DrawerRecord)) :
    List (String × String) :=
  rooms.flatMap fun g => g.2.map fun record => (g.1, dialect.entryLine record)

/-- Every room is followed by an entry, or is the last and followed by the ellipsis. -/
def Headed (sections : List Section) (cut : Bool) : Prop :=
  ∀ before s behind, sections = before ++ s :: behind → s.2 ≠ [] ∨ behind = [] ∧ cut = true

theorem headed_of_nonempty {cut : Bool} (h : ∀ s ∈ sections, s.2 ≠ []) : Headed sections cut :=
  fun _ s _ hsplit => .inl (h s (hsplit ▸ List.mem_append_right _ List.mem_cons_self))

theorem headed_last (h : ∀ s ∈ done, s.2 ≠ []) (room : String) :
    Headed (done ++ [(room, [])]) true := by
  intro before s behind hsplit
  rcases List.append_eq_append_iff.1 hsplit with ⟨mid, hbefore, hlast⟩ | ⟨mid, hdone, hlast⟩
  · cases mid with
    | nil => exact .inr ⟨(List.cons.inj hlast).2.symm, rfl⟩
    | cons x mid => simp at hlast
  · cases mid with
    | nil => exact .inr ⟨(List.cons.inj hlast).2, rfl⟩
    | cons x mid =>
      rw [List.cons_append] at hlast
      refine .inl (h s ?_)
      rw [hdone, (List.cons.inj hlast).1]
      exact List.mem_append_right _ List.mem_cons_self

theorem opened_nonempty (h : ∀ s ∈ done, s.2 ≠ []) (room : String) (entries : List String) :
    ∀ s ∈ opened done room entries, s.2 ≠ [] := by
  unfold opened
  split
  · exact h
  · rename_i hentries
    intro s hs
    rcases List.mem_append.1 hs with hs | hs
    · exact h s hs
    · rw [List.mem_singleton.1 hs]
      exact hentries

theorem shownEntries_opened (done : List Section) (room : String) (entries : List String) :
    shownEntries (opened done room entries) =
      shownEntries done ++ entries.map fun entry => (room, entry) := by
  unfold opened
  split
  · rename_i hentries
    simp [hentries]
  · simp [shownEntries]

theorem cutIn_shown (h : ∀ s ∈ done, s.2 ≠ []) {rest : List String} {cut : Bool}
    (hcut : CutIn done room [] rest sections cut) :
    Headed sections cut ∧ ∃ shown, shown <+: rest.map (fun entry => (room, entry)) ∧
      shownEntries sections = shownEntries done ++ shown := by
  rcases hcut with ⟨shown, hshown, rfl⟩ | ⟨rfl, rfl⟩
  · refine ⟨headed_of_nonempty (opened_nonempty h room _), _, hshown.map _, ?_⟩
    rw [shownEntries_opened, List.nil_append]
  · exact ⟨headed_last h room, [], List.nil_prefix, by simp [shownEntries]⟩

theorem renderRooms_shows (dialect : Dialect) (h : Shows identity maxChars done text)
    (hdone : ∀ s ∈ done, s.2 ≠ []) (rooms : List (String × List DrawerRecord)) :
    ∃ sections cut, (∃ shown, shown <+: groupedEntries dialect rooms ∧
        shownEntries sections = shownEntries done ++ shown) ∧ Headed sections cut ∧
      Ends identity maxChars sections cut
        (match dialect.renderRooms maxChars rooms text with
        | .ok text => text.lines
        | .error out => out) := by
  induction rooms generalizing done text with
  | nil =>
    exact ⟨done, false, ⟨[], List.nil_prefix, (List.append_nil _).symm⟩,
      headed_of_nonempty hdone, h.ends⟩
  | cons g rooms ih =>
    obtain ⟨room, records⟩ := g
    have hsplit : groupedEntries dialect ((room, records) :: rooms) =
        (records.map dialect.entryLine).map (fun entry => (room, entry)) ++
          groupedEntries dialect rooms := by
      simp [groupedEntries]
    have hopened : Shows identity maxChars (opened done room []) text := h
    obtain ⟨hok, herror⟩ := renderRoom_shows dialect hopened records
    have hrender : dialect.renderRooms maxChars ((room, records) :: rooms) text =
        dialect.renderRoom maxChars room records false text >>=
          dialect.renderRooms maxChars rooms := rfl
    rw [hrender, hsplit]
    cases hroom : dialect.renderRoom maxChars room records false text with
    | ok text' =>
      have hshows := hok text' hroom
      rw [List.nil_append] at hshows
      obtain ⟨sections, cut, ⟨shown, hshown, hentries⟩, hheaded, hends⟩ :=
        ih hshows (opened_nonempty hdone room _)
      refine ⟨sections, cut, ⟨_, (List.prefix_append_right_inj _).2 hshown, ?_⟩, hheaded, hends⟩
      rw [hentries, shownEntries_opened, List.append_assoc]
    | error out =>
      obtain ⟨sections, cut, hends, hcut⟩ := herror out hroom
      obtain ⟨hheaded, shown, hshown, hentries⟩ := cutIn_shown hdone hcut
      exact ⟨sections, cut, ⟨shown, hshown.trans (List.prefix_append _ _), hentries⟩, hheaded,
        hends⟩

end

theorem length_groupedEntries_le (dialect : Dialect) (maxDrawers : Nat)
    (drawers : List DrawerRecord) :
    (groupedEntries dialect (Dialect.grouped maxDrawers drawers).entries).length ≤ maxDrawers := by
  have hperm := OrdMap.groupBy_perm (·.room) ((orderDrawers drawers).take maxDrawers)
  have hlength : (groupedEntries dialect (Dialect.grouped maxDrawers drawers).entries).length =
      ((Dialect.grouped maxDrawers drawers).entries.flatMap (·.2)).length := by
    simp [groupedEntries, List.length_flatMap]
  rw [hlength, Dialect.grouped, hperm.length_eq]
  exact List.length_take_le _ _

/-- **The story keeps to its budget.** If the identity and the heading fit, the story
of one drawer or more is made of the heading, of rooms that each have an entry or are
the last and before the ellipsis, and perhaps of an ellipsis; its entries are the first
of the grouped drawers, no more than the maximum, and it is within the characters. -/
theorem renderWakeUpAaak_fits (dialect : Dialect) (identity : String) (drawers : List DrawerRecord)
    (config : WakeUpAaaKConfig) (hdrawers : drawers ≠ [])
    (hfits : charCount (joinLines [trim identity, "", storyHeading]) ≤ config.maxChars) :
    ∃ sections cut,
      dialect.renderWakeUpAaak identity drawers config =
        joinLines (storyLines (trim identity) sections ++ if cut then [ellipsis] else []) ∧
      charCount (dialect.renderWakeUpAaak identity drawers config) ≤ config.maxChars ∧
      Headed sections cut ∧
      shownEntries sections <+:
        groupedEntries dialect (Dialect.grouped config.maxDrawers drawers).entries ∧
      (shownEntries sections).length ≤ config.maxDrawers := by
  have hordered : orderDrawers drawers ≠ [] := by
    intro hempty
    have hperm : (orderDrawers drawers).Perm drawers := List.perm_insertionSort _ drawers
    rw [hempty] at hperm
    exact hdrawers hperm.symm.eq_nil
  have hshows : Shows (trim identity) config.maxChars []
      (pushLine (pushLine (pushLine {} (trim identity)) "") storyHeading) := by
    have hcounted := counted_pushLine (counted_pushLine (counted_first (trim identity)) "")
      storyHeading
    exact ⟨rfl, hcounted, hcounted.chars ▸ hfits⟩
  obtain ⟨sections, cut, ⟨shown, hshown, hentries⟩, hheaded, hends⟩ :=
    renderRooms_shows dialect hshows (by simp) (Dialect.grouped config.maxDrawers drawers).entries
  have hrender : dialect.renderWakeUpAaak identity drawers config =
      joinLines (match dialect.renderRooms config.maxChars
          (Dialect.grouped config.maxDrawers drawers).entries
          (pushLine (pushLine (pushLine {} (trim identity)) "") storyHeading) with
        | .ok text => text.lines
        | .error out => out) := by
    unfold Dialect.renderWakeUpAaak
    dsimp only
    rw [if_neg hordered]
    split <;> rfl
  have hprefix : shownEntries sections <+:
      groupedEntries dialect (Dialect.grouped config.maxDrawers drawers).entries := by
    rw [hentries]
    exact hshown
  refine ⟨sections, cut, ?_, ?_, hheaded, hprefix,
    hprefix.length_le.trans (length_groupedEntries_le dialect _ _)⟩
  · rw [hrender, hends.lines]
  · rw [hrender]
    exact hends.fits

/-- A budget that the entry does not fit ends the story after its heading. -/
theorem renderWakeUpAaak_fits_sample :
    Dialect.renderWakeUpAaak ⟨fun content _ => content⟩ "Ready." [Lance.plainRecord]
        { maxChars := 40 } = joinLines ["Ready.", "", storyHeading] ∧
      ∃ sections cut, Headed sections cut ∧
        charCount (Dialect.renderWakeUpAaak ⟨fun content _ => content⟩ "Ready."
          [Lance.plainRecord] { maxChars := 40 }) ≤ 40 := by
  have hfits : charCount (joinLines [trim "Ready.", "", storyHeading]) ≤ 40 := by decide +kernel
  obtain ⟨sections, cut, _, hchars, hheaded, _⟩ := renderWakeUpAaak_fits
    ⟨fun content _ => content⟩ "Ready." [Lance.plainRecord] { maxChars := 40 } (by simp) hfits
  exact ⟨by decide +kernel, sections, cut, hheaded, hchars⟩

end AgentPalace.WakeUp
