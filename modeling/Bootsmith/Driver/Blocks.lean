/-
**Blocks of lines under headers.**

`headerAt` is the section a line opens. A block is a header with the lines up to the next header of any
name (`InBlock`); a run goes on over headers of the same name (`InRun`). The scan of `apply_additions` leaves
a section when a header of another name comes, so it finds the last line with text of the first run
(`Traced`, `Traced.anchorOf`).
-/

import Bootsmith.Driver.Anchors

namespace Bootsmith.Driver

open Bootsmith.Library

/-! ### Headers and text by line number -/

/-- The section that a line opens. -/
def headerAt (all : List Text) (idx : Nat) : Option Text := all[idx]?.bind headerKey

/-- The line has text. -/
def HasText (all : List Text) (idx : Nat) : Prop := ∃ raw, all[idx]? = some raw ∧ trim raw ≠ []

/-- The line is the first header of a section. -/
structure FirstHeader (all : List Text) (key : Text) (header : Nat) : Prop where
  opens : headerAt all header = some key
  first : ∀ idx < header, headerAt all idx ≠ some key

/-- The line lies behind the header and in front of the next one. -/
def InBlock (all : List Text) (header idx : Nat) : Prop :=
  header < idx ∧ idx < all.length ∧ ∀ between, header < between → between ≤ idx → headerAt all between = none

/-- The line lies behind the header and in front of the next one of another section. -/
def InRun (all : List Text) (key : Text) (header idx : Nat) : Prop :=
  header < idx ∧ idx < all.length ∧
    ∀ between, header < between → between ≤ idx → ∀ other, headerAt all between = some other → other = key

/-- A header of another section comes after the header. -/
def Left (all : List Text) (key : Text) (header : Nat) : Prop :=
  ∃ later other, header < later ∧ headerAt all later = some other ∧ other ≠ key

/-- The last body line with text of a run. -/
structure LastBody (all : List Text) (key : Text) (header idx : Nat) : Prop where
  inRun : InRun all key header idx
  body : headerAt all idx = none
  text : HasText all idx
  last : ∀ later, idx < later → InRun all key header later → headerAt all later = none → ¬ HasText all later

section Lines

variable {all seen : List Text} {raw key : Text} {idx header : Nat}

theorem headerAt_lt (opens : headerAt all idx = some key) : idx < all.length := by
  by_contra past
  rw [headerAt, List.getElem?_eq_none (Nat.le_of_not_lt past)] at opens
  cases opens

theorem headerAt_append (before : idx < seen.length) (rest : List Text) :
    headerAt (seen ++ rest) idx = headerAt seen idx := by
  rw [headerAt, headerAt, List.getElem?_append_left before]

theorem headerAt_last (seen : List Text) (raw : Text) :
    headerAt (seen ++ [raw]) seen.length = headerKey raw := by
  rw [headerAt, List.getElem?_concat_length]
  rfl

theorem hasText_append (before : idx < seen.length) (rest : List Text) :
    HasText (seen ++ rest) idx ↔ HasText seen idx := by
  unfold HasText
  rw [List.getElem?_append_left before]

theorem hasText_last (seen : List Text) (raw : Text) :
    HasText (seen ++ [raw]) seen.length ↔ trim raw ≠ [] := by
  unfold HasText
  rw [List.getElem?_concat_length]
  constructor
  · rintro ⟨other, same, text⟩
    rwa [Option.some.inj same]
  · exact fun text => ⟨raw, rfl, text⟩

theorem lt_length_concat (inside : idx < (seen ++ [raw]).length) (other : idx ≠ seen.length) :
    idx < seen.length := by
  rw [List.length_append, List.length_singleton] at inside
  omega

/-- The last header of a section that is entered. -/
theorem exists_of_lastHeader (current : lastHeader seen = some key) :
    ∃ header, headerAt seen header = some key ∧ ∀ later, header < later → headerAt seen later = none := by
  induction seen using List.reverseRecOn with
  | nil => cases current
  | append_singleton seen raw ih =>
    cases opens : headerKey raw with
    | some other =>
      rw [lastHeader_concat_header seen opens] at current
      refine ⟨seen.length, (headerAt_last seen raw).trans (opens.trans current), fun later after => ?_⟩
      rw [headerAt, List.getElem?_eq_none (by rw [List.length_append, List.length_singleton]; exact after)]
      rfl
    | none =>
      rw [lastHeader_concat_body seen opens] at current
      obtain ⟨header, here, behind⟩ := ih current
      refine ⟨header, (headerAt_append (headerAt_lt here) [raw]).trans here, fun later after => ?_⟩
      by_cases last : later = seen.length
      · rw [last, headerAt_last, opens]
      · by_cases inside : later < seen.length
        · rw [headerAt_append inside, behind later after]
        · have past : (seen ++ [raw]).length ≤ later := by
            rw [List.length_append, List.length_singleton]
            omega
          rw [headerAt, List.getElem?_eq_none past]
          rfl

theorem headerAt_eq_none_of_lastHeader (current : lastHeader seen = none) (idx : Nat) :
    headerAt seen idx = none := by
  cases opens : headerAt seen idx with
  | none => rfl
  | some key =>
    obtain ⟨line, found, header⟩ := Option.bind_eq_some_iff.mp opens
    have member : key ∈ seen.filterMap headerKey :=
      List.mem_filterMap.mpr ⟨line, List.mem_of_getElem? found, header⟩
    rw [lastHeader, List.getLast?_eq_none_iff] at current
    rw [current] at member
    cases member

theorem firstHeader_concat (before : header < seen.length) (raw : Text) :
    FirstHeader (seen ++ [raw]) key header ↔ FirstHeader seen key header := by
  constructor
  · intro ⟨opens, first⟩
    refine ⟨(headerAt_append before [raw]).symm.trans opens, fun idx earlier => ?_⟩
    rw [← headerAt_append (earlier.trans before) [raw]]
    exact first idx earlier
  · intro ⟨opens, first⟩
    refine ⟨(headerAt_append before [raw]).trans opens, fun idx earlier => ?_⟩
    rw [headerAt_append (earlier.trans before) [raw]]
    exact first idx earlier

theorem FirstHeader.lt (first : FirstHeader all key header) :
    header < all.length := headerAt_lt first.opens

theorem FirstHeader.unique {header' : Nat} (first : FirstHeader all key header)
    (second : FirstHeader all key header') :
    header = header' := by
  by_contra different
  rcases Nat.lt_or_gt_of_ne different with before | after
  · exact second.first header before first.opens
  · exact first.first header' after second.opens

theorem inRun_concat (before : idx < seen.length) (raw : Text) :
    InRun (seen ++ [raw]) key header idx ↔ InRun seen key header idx := by
  have same : ∀ between, between ≤ idx → headerAt (seen ++ [raw]) between = headerAt seen between :=
    fun between early => headerAt_append (early.trans_lt before) [raw]
  unfold InRun
  constructor
  · rintro ⟨behind, -, run⟩
    exact ⟨behind, before, fun between after early other opens =>
      run between after early other ((same between early).trans opens)⟩
  · rintro ⟨behind, -, run⟩
    refine ⟨behind, by rw [List.length_append]; omega, fun between after early other opens => ?_⟩
    exact run between after early other ((same between early).symm.trans opens)

/-- A section that was not left goes on. -/
theorem inRun_last (first : FirstHeader seen key header) (stays : ¬ Left seen key header)
    (body : headerKey raw = none) :
    InRun (seen ++ [raw]) key header seen.length := by
  refine ⟨first.lt, by simp, fun between after early other opens => ?_⟩
  by_cases last : between = seen.length
  · rw [last, headerAt_last, body] at opens
    cases opens
  · have inside : between < seen.length := Nat.lt_of_le_of_ne early last
    rw [headerAt_append inside] at opens
    by_contra different
    exact stays ⟨between, other, after, opens, different⟩

end Lines

/-! ### The maps of the scan, key by key -/

theorem lookup_filter_ne {map : List (Text × Nat)} {key other : Text} (different : key ≠ other) :
    (map.filter fun entry => entry.1 ≠ other).lookup key = map.lookup key := by
  induction map with
  | nil => rfl
  | cons entry rest ih =>
    by_cases dropped : entry.1 = other
    · have skip : (key == entry.1) = false := beq_eq_false_iff_ne.mpr (dropped ▸ different)
      rw [List.filter_cons_of_neg (by simp [dropped]), ih, List.lookup_cons, skip]
    · rw [List.filter_cons_of_pos (by simp [dropped]), List.lookup_cons, List.lookup_cons, ih]

theorem lookup_insertKey_self (key : Text) (idx : Nat) (map : List (Text × Nat)) :
    (insertKey key idx map).lookup key = some idx := by
  rw [insertKey, List.lookup_cons, beq_self_eq_true]

theorem lookup_insertKey_of_ne {key other : Text} (different : key ≠ other) (idx : Nat)
    (map : List (Text × Nat)) :
    (insertKey other idx map).lookup key = map.lookup key := by
  rw [insertKey, List.lookup_cons, beq_eq_false_iff_ne.mpr different]
  exact lookup_filter_ne different

theorem lookup_orInsert_of_ne {key other : Text} (different : key ≠ other) (idx : Nat)
    (map : List (Text × Nat)) :
    (orInsert other idx map).lookup key = map.lookup key := by
  unfold orInsert
  split
  · rfl
  · rw [List.lookup_cons, beq_eq_false_iff_ne.mpr different]

theorem lookup_orInsert_self (key : Text) (idx : Nat) (map : List (Text × Nat)) :
    (orInsert key idx map).lookup key = some ((map.lookup key).getD idx) := by
  unfold orInsert
  cases found : map.lookup key with
  | some old => simp [found]
  | none => simp

/-! ### The scan -/

/-- What the scan knows of the headers it has seen. -/
structure Headed (seen : List Text) (state : ScanState) : Prop where
  current : state.currentSection = lastHeader seen
  firstSeen : ∀ key header, state.sectionFirstSeen.lookup key = some header → FirstHeader seen key header
  unseen : ∀ key, state.sectionFirstSeen.lookup key = none → ∀ idx, headerAt seen idx ≠ some key
  left : ∀ key header, FirstHeader seen key header → (key ∈ state.sectionLeft ↔ Left seen key header)
  leftSeen : ∀ key ∈ state.sectionLeft, ∃ idx, headerAt seen idx = some key

/-- **What the scan has traced** of the lines it has seen. -/
structure Traced (seen : List Text) (state : ScanState) : Prop extends Headed seen state where
  body : ∀ key idx, state.lastBodyIdx.lookup key = some idx →
    ∃ header, FirstHeader seen key header ∧ LastBody seen key header idx
  noBody : ∀ key header, state.lastBodyIdx.lookup key = none → FirstHeader seen key header →
    ∀ idx, InRun seen key header idx → headerAt seen idx = none → ¬ HasText seen idx

section Scan

variable {seen : List Text} {state : ScanState} {raw key sec : Text} {header idx : Nat}

/-- The current section is the one whose first run goes on. -/
theorem current_of_not_left (first : FirstHeader seen key header) (stays : ¬ Left seen key header) :
    lastHeader seen = some key := by
  cases current : lastHeader seen with
  | none =>
    have none := (headerAt_eq_none_of_lastHeader current header).symm.trans first.opens
    cases none
  | some sec =>
    obtain ⟨last, opens, behind⟩ := exists_of_lastHeader current
    by_contra different
    rcases Nat.lt_trichotomy last header with before | same | after
    · have none := (behind header before).symm.trans first.opens
      cases none
    · rw [same, first.opens] at opens
      exact different opens.symm
    · exact stays ⟨last, sec, after, opens, fun same => different (congrArg some same)⟩

theorem left_concat_body (body : headerKey raw = none) :
    Left (seen ++ [raw]) key header ↔ Left seen key header := by
  constructor
  · rintro ⟨later, other, after, opens, different⟩
    have notLast : later ≠ seen.length := fun last => by
      rw [last, headerAt_last, body] at opens
      cases opens
    have before := lt_length_concat (headerAt_lt opens) notLast
    exact ⟨later, other, after, (headerAt_append before [raw]).symm.trans opens, different⟩
  · rintro ⟨later, other, after, opens, different⟩
    exact ⟨later, other, after, (headerAt_append (headerAt_lt opens) [raw]).trans opens, different⟩

/-- A header of another section leaves a section. -/
theorem left_concat_header (opens : headerKey raw = some sec) (first : FirstHeader seen key header) :
    Left (seen ++ [raw]) key header ↔ Left seen key header ∨ sec ≠ key := by
  constructor
  · rintro ⟨later, other, after, here, different⟩
    by_cases last : later = seen.length
    · rw [last, headerAt_last, opens] at here
      exact Or.inr (Option.some.inj here ▸ different)
    · have before := lt_length_concat (headerAt_lt here) last
      exact Or.inl ⟨later, other, after, (headerAt_append before [raw]).symm.trans here, different⟩
  · rintro (⟨later, other, after, here, different⟩ | different)
    · exact ⟨later, other, after, (headerAt_append (headerAt_lt here) [raw]).trans here, different⟩
    · exact ⟨seen.length, sec, first.lt, (headerAt_last seen raw).trans opens, different⟩

/-- The first headers before a line with a body are the old ones. -/
theorem FirstHeader.of_concat_body (body : headerKey raw = none)
    (first : FirstHeader (seen ++ [raw]) key header) :
    FirstHeader seen key header := by
  have notLast : header ≠ seen.length := fun last => by
    have opens := first.opens
    rw [last, headerAt_last, body] at opens
    cases opens
  exact (firstHeader_concat (lt_length_concat first.lt notLast) raw).mp first

/-- A last body line stays the last when a line comes that is no body line of its run with text. -/
theorem LastBody.concat (last : LastBody seen key header idx)
    (quiet : InRun (seen ++ [raw]) key header seen.length → headerKey raw = none → trim raw = []) :
    LastBody (seen ++ [raw]) key header idx := by
  have before : idx < seen.length := last.inRun.2.1
  refine ⟨(inRun_concat before raw).mpr last.inRun, (headerAt_append before [raw]).trans last.body,
    (hasText_append before [raw]).mpr last.text, fun later after inRun body text => ?_⟩
  by_cases here : later = seen.length
  · rw [here] at inRun body text
    rw [headerAt_last] at body
    exact (hasText_last seen raw).mp text (quiet inRun body)
  · have early := lt_length_concat inRun.2.1 here
    rw [headerAt_append early] at body
    exact last.last later after ((inRun_concat early raw).mp inRun) body ((hasText_append early [raw]).mp text)

/-- No body line has text while the new line has none. -/
theorem noBody_concat
    (none : ∀ idx, InRun seen key header idx → headerAt seen idx = none → ¬ HasText seen idx)
    (quiet : InRun (seen ++ [raw]) key header seen.length → headerKey raw = Option.none → trim raw = []) :
    ∀ idx, InRun (seen ++ [raw]) key header idx → headerAt (seen ++ [raw]) idx = Option.none →
      ¬ HasText (seen ++ [raw]) idx := by
  intro idx inRun body text
  by_cases here : idx = seen.length
  · rw [here] at inRun body text
    rw [headerAt_last] at body
    exact (hasText_last seen raw).mp text (quiet inRun body)
  · have early := lt_length_concat inRun.2.1 here
    rw [headerAt_append early] at body
    exact none idx ((inRun_concat early raw).mp inRun) body ((hasText_append early [raw]).mp text)

/-- The sections that are left behind a header of `sec`. -/
def leftAfter (state : ScanState) (sec : Text) : List Text :=
  match state.currentSection with
  | some prev => if prev ≠ sec then prev :: state.sectionLeft else state.sectionLeft
  | none => state.sectionLeft

theorem mem_leftAfter : key ∈ leftAfter state sec ↔
    key ∈ state.sectionLeft ∨ state.currentSection = some key ∧ key ≠ sec := by
  unfold leftAfter
  cases state.currentSection with
  | none => simp
  | some prev =>
    dsimp only
    split
    · rename_i different
      rw [List.mem_cons, or_comm]
      refine or_congr_right ⟨?_, fun both => (Option.some.inj both.1).symm⟩
      rintro rfl
      exact ⟨rfl, different⟩
    · rename_i same
      rw [not_not] at same
      refine ⟨Or.inl, fun either => either.elim id fun both => ?_⟩
      exact absurd ((Option.some.inj both.1).symm.trans same) both.2

theorem scanLine_header (opens : headerKey raw = some sec) (state : ScanState) (idx : Nat) :
    scanLine state (raw, idx) =
      ⟨some sec, state.lastBodyIdx, orInsert sec idx state.sectionFirstSeen, leftAfter state sec⟩ := by
  cases current : state.currentSection <;> simp only [scanLine, leftAfter, opens, current]

/-- A first header is an old one, or the new line is. -/
theorem FirstHeader.of_concat_header (opens : headerKey raw = some sec)
    (first : FirstHeader (seen ++ [raw]) key header) : FirstHeader seen key header ∨
      header = seen.length ∧ key = sec ∧ ∀ idx, headerAt seen idx ≠ some key := by
  by_cases here : header = seen.length
  · have same := first.opens
    rw [here, headerAt_last, opens] at same
    refine Or.inr ⟨here, (Option.some.inj same).symm, fun idx before => ?_⟩
    have early := headerAt_lt before
    exact first.first idx (here ▸ early) ((headerAt_append early [raw]).trans before)
  · exact Or.inl ((firstHeader_concat (lt_length_concat first.lt here) raw).mp first)

/-- The headers with a new one. -/
theorem Headed.headerLine (headed : Headed seen state) (opens : headerKey raw = some sec) :
    Headed (seen ++ [raw]) (scanLine state (raw, seen.length)) := by
  have last : headerAt (seen ++ [raw]) seen.length = some sec := (headerAt_last seen raw).trans opens
  rw [scanLine_header opens]
  constructor
  · exact (lastHeader_concat_header seen opens).symm
  · intro key header found
    by_cases same : key = sec
    · rw [same, lookup_orInsert_self] at found
      rw [same, ← Option.some.inj found]
      cases old : state.sectionFirstSeen.lookup sec with
      | some first =>
        have known := headed.firstSeen sec first old
        exact (firstHeader_concat known.lt raw).mpr known
      | none =>
        refine ⟨last, fun idx before => ?_⟩
        rw [Option.getD_none] at before
        rw [headerAt_append before]
        exact headed.unseen sec old idx
    · rw [lookup_orInsert_of_ne same] at found
      have known := headed.firstSeen key header found
      exact (firstHeader_concat known.lt raw).mpr known
  · intro key missing idx opened
    by_cases same : key = sec
    · rw [same, lookup_orInsert_self] at missing
      cases missing
    · rw [lookup_orInsert_of_ne same] at missing
      by_cases here : idx = seen.length
      · rw [here, last] at opened
        exact same (Option.some.inj opened).symm
      · have early := lt_length_concat (headerAt_lt opened) here
        exact headed.unseen key missing idx ((headerAt_append early [raw]).symm.trans opened)
  · intro key header first
    rw [mem_leftAfter, headed.current]
    rcases first.of_concat_header opens with known | ⟨here, same, unseen⟩
    · rw [left_concat_header opens known, ← headed.left key header known]
      constructor
      · exact fun either => either.imp_right fun both => Ne.symm both.2
      · rintro (old | different)
        · exact Or.inl old
        · by_cases leftBefore : key ∈ state.sectionLeft
          · exact Or.inl leftBefore
          · -- the section is the current one, and this header leaves it
            have stays := fun left => leftBefore ((headed.left key header known).mpr left)
            exact Or.inr ⟨current_of_not_left known stays, Ne.symm different⟩
    · constructor
      · rintro (old | both)
        · obtain ⟨idx, before⟩ := headed.leftSeen key old
          exact absurd before (unseen idx)
        · exact absurd same both.2
      · rintro ⟨later, other, after, opened, _⟩
        have past := headerAt_lt opened
        rw [List.length_append, List.length_singleton] at past
        omega
  · intro key member
    have known : ∃ idx, headerAt seen idx = some key := by
      rcases mem_leftAfter.mp member with old | ⟨current, -⟩
      · exact headed.leftSeen key old
      · obtain ⟨header, opened, -⟩ := exists_of_lastHeader (headed.current.symm.trans current)
        exact ⟨header, opened⟩
    obtain ⟨idx, opened⟩ := known
    exact ⟨idx, (headerAt_append (headerAt_lt opened) [raw]).trans opened⟩

/-- A header line. -/
theorem Traced.headerLine (traced : Traced seen state) (opens : headerKey raw = some sec) :
    Traced (seen ++ [raw]) (scanLine state (raw, seen.length)) := by
  have noBodyLine : ∀ {key : Text} {header : Nat}, InRun (seen ++ [raw]) key header seen.length →
      headerKey raw = none → trim raw = [] := fun _ body => by
    rw [opens] at body
    cases body
  refine ⟨traced.toHeaded.headerLine opens, fun key idx found => ?_, fun key header missing first => ?_⟩
  · rw [scanLine_header opens] at found
    obtain ⟨header, first, lastBody⟩ := traced.body key idx found
    exact ⟨header, (firstHeader_concat first.lt raw).mpr first, lastBody.concat noBodyLine⟩
  · rw [scanLine_header opens] at missing
    rcases first.of_concat_header opens with known | ⟨here, -, -⟩
    · exact noBody_concat (traced.noBody key header missing known) noBodyLine
    · rintro idx ⟨behind, inside, -⟩
      rw [List.length_append, List.length_singleton] at inside
      omega

/-- The headers stay as they are under a line without one. -/
theorem Headed.bodyLine (headed : Headed seen state) (body : headerKey raw = none) :
    Headed (seen ++ [raw]) state := by
  constructor
  · exact headed.current.trans (lastHeader_concat_body seen body).symm
  · intro key header found
    have known := headed.firstSeen key header found
    exact (firstHeader_concat known.lt raw).mpr known
  · intro key missing idx opened
    by_cases here : idx = seen.length
    · rw [here, headerAt_last, body] at opened
      cases opened
    · have early := lt_length_concat (headerAt_lt opened) here
      exact headed.unseen key missing idx ((headerAt_append early [raw]).symm.trans opened)
  · intro key header first
    rw [left_concat_body body]
    exact headed.left key header (first.of_concat_body body)
  · intro key member
    obtain ⟨idx, opened⟩ := headed.leftSeen key member
    exact ⟨idx, (headerAt_append (headerAt_lt opened) [raw]).trans opened⟩

/-- The run that a line without a header belongs to is the one of the current section, not left. -/
theorem current_of_inRun (first : FirstHeader seen key header)
    (inRun : InRun (seen ++ [raw]) key header seen.length) :
    lastHeader seen = some key ∧ ¬ Left seen key header := by
  have stays : ¬ Left seen key header := by
    rintro ⟨later, other, after, opened, different⟩
    have before := headerAt_lt opened
    exact different (inRun.2.2 later after before.le other ((headerAt_append before [raw]).trans opened))
  exact ⟨current_of_not_left first stays, stays⟩

/-- A line without a header that changes no anchor. -/
theorem Traced.quietLine (traced : Traced seen state) (body : headerKey raw = none)
    (quiet : ∀ key header, FirstHeader seen key header → ¬ Left seen key header →
      lastHeader seen = some key → trim raw = []) : Traced (seen ++ [raw]) state := by
  have still : ∀ {key header}, FirstHeader seen key header →
      InRun (seen ++ [raw]) key header seen.length → headerKey raw = none → trim raw = [] := by
    intro key header first inRun _
    obtain ⟨current, stays⟩ := current_of_inRun first inRun
    exact quiet key header first stays current
  refine ⟨traced.toHeaded.bodyLine body, fun key idx found => ?_, fun key header missing first => ?_⟩
  · obtain ⟨header, first, lastBody⟩ := traced.body key idx found
    exact ⟨header, (firstHeader_concat first.lt raw).mpr first, lastBody.concat (still first)⟩
  · have known := first.of_concat_body body
    exact noBody_concat (traced.noBody key header missing known) (still known)

/-- A line with text in the run of the current section. -/
theorem Traced.textLine (traced : Traced seen state) (body : headerKey raw = none)
    (current : lastHeader seen = some sec) (first : FirstHeader seen sec header)
    (stays : ¬ Left seen sec header) (text : trim raw ≠ []) :
    Traced (seen ++ [raw]) { state with lastBodyIdx := insertKey sec seen.length state.lastBodyIdx } := by
  -- the other sections do not go on here
  have still : ∀ {key header}, key ≠ sec → FirstHeader seen key header →
      InRun (seen ++ [raw]) key header seen.length → headerKey raw = none → trim raw = [] := by
    intro key header other first inRun _
    have same := (current_of_inRun first inRun).1
    exact absurd (Option.some.inj (same.symm.trans current)) other
  have headed := traced.toHeaded.bodyLine body
  refine ⟨⟨headed.current, headed.firstSeen, headed.unseen, headed.left, headed.leftSeen⟩,
    fun key idx found => ?_, fun key header missing first => ?_⟩
  · by_cases same : key = sec
    · rw [same, lookup_insertKey_self] at found
      rw [same, ← Option.some.inj found]
      refine ⟨header, (firstHeader_concat first.lt raw).mpr first, inRun_last first stays body,
        (headerAt_last seen raw).trans body, (hasText_last seen raw).mpr text, fun later after inRun _ _ => ?_⟩
      have inside := inRun.2.1
      rw [List.length_append, List.length_singleton] at inside
      omega
    · rw [lookup_insertKey_of_ne same] at found
      obtain ⟨header, first, lastBody⟩ := traced.body key idx found
      exact ⟨header, (firstHeader_concat first.lt raw).mpr first, lastBody.concat (still same first)⟩
  · by_cases same : key = sec
    · rw [same, lookup_insertKey_self] at missing
      cases missing
    · rw [lookup_insertKey_of_ne same] at missing
      have known := first.of_concat_body body
      exact noBody_concat (traced.noBody key header missing known) (still same known)

/-- A section that was entered has been seen, so `section_first_seen[section]` does not panic. -/
theorem Headed.entered_seen (headed : Headed seen state) (entered : state.currentSection = some sec) :
    (state.sectionFirstSeen.lookup sec).isSome := by
  cases found : state.sectionFirstSeen.lookup sec with
  | some header => rfl
  | none =>
    obtain ⟨header, opened, -⟩ := exists_of_lastHeader (headed.current.symm.trans entered)
    exact absurd opened (headed.unseen sec found header)

/-- **One line of the scan.** -/
theorem Traced.scanLine (traced : Traced seen state) (raw : Text) :
    Traced (seen ++ [raw]) (scanLine state (raw, seen.length)) := by
  cases opens : headerKey raw with
  | some sec => exact traced.headerLine opens
  | none =>
    unfold Driver.scanLine
    rw [opens]
    dsimp only
    split
    · rename_i outside
      refine traced.quietLine opens fun key header _ _ current => ?_
      rw [← traced.current, outside] at current
      cases current
    · rename_i sec entered
      have current := traced.current.symm.trans entered
      split
      · rename_i leftBefore
        refine traced.quietLine opens fun key header first stays here => ?_
        have same : key = sec := Option.some.inj (here.symm.trans current)
        exact absurd ((traced.left key header first).mp (same ▸ leftBefore)) stays
      · rename_i notLeft
        split
        · rename_i missing
          have known := traced.toHeaded.entered_seen entered
          rw [missing] at known
          cases known
        · rename_i header found
          have first := traced.firstSeen sec header found
          have stays := fun left => notLeft ((traced.left sec header first).mpr left)
          split
          · rename_i text
            exact traced.textLine opens current first stays text.2
          · rename_i noText
            refine traced.quietLine opens fun _ _ _ _ _ => ?_
            by_contra text
            exact noText ⟨first.lt.le, text⟩

end Scan

theorem traced_scanLines (all : List Text) : Traced all (scanLines all) := by
  have start : Traced [] ⟨none, [], [], []⟩ := by
    refine ⟨⟨rfl, ?_, ?_, ?_, ?_⟩, ?_, ?_⟩
    · exact fun key header found => by cases found
    · exact fun key _ idx opened => by cases opened
    · exact fun key header first => absurd first.lt (Nat.not_lt_zero _)
    · exact fun key member => absurd member List.not_mem_nil
    · exact fun key idx found => by cases found
    · exact fun key header _ first => absurd first.lt (Nat.not_lt_zero _)
  exact foldl_zipIdx Traced start (fun seen raw state traced => traced.scanLine raw) all

/-! ### Anchors -/

/-- The anchor of a group among some lines behind a header: the last one with text, or the header. -/
structure Anchors (all : List Text) (lines : Nat → Prop) (header anchor : Nat) : Prop where
  here : anchor = header ∨ lines anchor ∧ headerAt all anchor = none ∧ HasText all anchor
  last : ∀ later, anchor < later → lines later → headerAt all later = none → ¬ HasText all later

section Anchors

variable {all : List Text} {state : ScanState} {key : Text} {header : Nat}

/-- **The scan anchors a group in the first run of its section.** -/
theorem Traced.anchorOf (traced : Traced all state)
    (found : state.sectionFirstSeen.lookup key = some header) :
    Anchors all (InRun all key header) header (anchorOf state.lastBodyIdx (key, header)) := by
  have first := traced.firstSeen key header found
  unfold Driver.anchorOf
  cases body : state.lastBodyIdx.lookup key with
  | none =>
    refine ⟨Or.inl rfl, fun later _ inRun noHeader => ?_⟩
    exact traced.noBody key header body first later inRun noHeader
  | some idx =>
    obtain ⟨header', first', lastBody⟩ := traced.body key idx body
    rw [← first.unique first'] at lastBody
    exact ⟨Or.inr ⟨lastBody.inRun, lastBody.body, lastBody.text⟩, lastBody.last⟩

end Anchors

end Bootsmith.Driver
