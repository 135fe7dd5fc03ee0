/-
**What a patch of `DOSNET.INF` leaves.**

`patch_dosnet_inf` puts one group of lines into the last `[Files]` block, which any header ends
(`patchDosnetInf_lastBlock`). The new lines hold no line feed, so they are read back as they were put in
(`patchDosnetInf_lines`), and the text gains one line for each file and no other (`patchDosnetInf_count`).
-/

import Bootsmith.Driver.Placement

namespace Bootsmith.Driver

open Bootsmith.Library

/-! ### The last block -/

/-- The line is the last header of a section. -/
structure LastHeader (all : List Text) (key : Text) (header : Nat) : Prop where
  opens : headerAt all header = some key
  last : ∀ idx, header < idx → headerAt all idx ≠ some key

section Lines

variable {seen : List Text} {raw : Text} {header idx last : Nat}

theorem headerKey_eq_files {raw name : Text} (opens : parseSectionHeader (trimStart raw) = some name) :
    headerKey raw = some "files".toList ↔ eqIgnoreCase name "Files".toList = true := by
  have files : lower "Files".toList = "files".toList := by decide
  rw [headerKey, opens, Option.map_some, Option.some_inj, eqIgnoreCase_iff, files]

theorem headerKey_eq_none : headerKey raw = none ↔ (parseSectionHeader (trimStart raw)).isSome = false := by
  rw [headerKey, Option.map_eq_none_iff, Option.isSome_eq_false_iff, Option.isNone_iff_eq_none]

/-- **The scan for the header** finds the last one of `[Files]`. -/
theorem lastFilesHeader_cases (all : List Text) :
    (lastFilesHeader all = none ∧ ∀ idx, headerAt all idx ≠ some "files".toList) ∨
      ∃ header, lastFilesHeader all = some header ∧ LastHeader all "files".toList header := by
  unfold lastFilesHeader
  refine foldl_zipIdx (fun seen found =>
    (found = none ∧ ∀ idx, headerAt seen idx ≠ some "files".toList) ∨
      ∃ header, found = some header ∧ LastHeader seen "files".toList header)
    (Or.inl ⟨rfl, fun idx opens => by cases opens⟩) (fun seen raw found known => ?_) all
  have here := headerAt_last seen raw
  have before : ∀ idx, headerAt (seen ++ [raw]) idx = some "files".toList → idx ≠ seen.length →
      headerAt seen idx = some "files".toList := fun idx opens other => by
    have early := lt_length_concat (headerAt_lt opens) other
    exact (headerAt_append early [raw]).symm.trans opens
  by_cases isFiles : headerKey raw = some "files".toList
  · -- the new line is the last header
    refine Or.inr ⟨seen.length, ?_, here.trans isFiles, fun idx after opens => ?_⟩
    · obtain ⟨name, opens, -⟩ := Option.map_eq_some_iff.mp isFiles
      dsimp only
      rw [opens]
      dsimp only
      rw [if_pos ((headerKey_eq_files opens).mp isFiles)]
    · have inside := headerAt_lt opens
      rw [List.length_append, List.length_singleton] at inside
      omega
  · have notHere : ∀ idx, headerAt (seen ++ [raw]) idx = some "files".toList → idx ≠ seen.length :=
      fun idx opens same => isFiles (here.symm.trans (same ▸ opens))
    have kept : (found = none ∧ ∀ idx, headerAt (seen ++ [raw]) idx ≠ some "files".toList) ∨
        ∃ header, found = some header ∧ LastHeader (seen ++ [raw]) "files".toList header := by
      rcases known with ⟨none, nowhere⟩ | ⟨header, same, lastHeader⟩
      · exact Or.inl ⟨none, fun idx opens => nowhere idx (before idx opens (notHere idx opens))⟩
      · refine Or.inr ⟨header, same, ?_, fun idx after opens => ?_⟩
        · exact (headerAt_append (headerAt_lt lastHeader.opens) [raw]).trans lastHeader.opens
        · exact lastHeader.last idx after (before idx opens (notHere idx opens))
    dsimp only
    cases opens : parseSectionHeader (trimStart raw) with
    | none => exact kept
    | some name =>
      dsimp only
      rw [if_neg fun same => isFiles ((headerKey_eq_files opens).mpr same)]
      exact kept

theorem inBlock_append (before : idx < seen.length) (rest : List Text) :
    InBlock (seen ++ rest) header idx ↔ InBlock seen header idx := by
  have same : ∀ between, between ≤ idx → headerAt (seen ++ rest) between = headerAt seen between :=
    fun between early => headerAt_append (early.trans_lt before) rest
  constructor
  · rintro ⟨behind, -, block⟩
    exact ⟨behind, before, fun between after early => (same between early).symm.trans (block between after early)⟩
  · rintro ⟨behind, -, block⟩
    refine ⟨behind, ?_, fun between after early => (same between early).trans (block between after early)⟩
    rw [List.length_append]
    exact before.trans_le (Nat.le_add_right _ _)

/-- The anchor of a block stays when no line with text is added to it. -/
theorem Anchors.append {rest : List Text} (anchors : Anchors seen (InBlock seen header) header last)
    (quiet : ∀ idx, seen.length ≤ idx → InBlock (seen ++ rest) header idx → ¬ HasText (seen ++ rest) idx) :
    Anchors (seen ++ rest) (InBlock (seen ++ rest) header) header last := by
  refine ⟨anchors.here.imp_right fun line => ?_, fun later after inBlock body text => ?_⟩
  · obtain ⟨inBlock, body, text⟩ := line
    have before := inBlock.2.1
    exact ⟨(inBlock_append before rest).mpr inBlock, (headerAt_append before rest).trans body,
      (hasText_append before rest).mpr text⟩
  · by_cases before : later < seen.length
    · rw [headerAt_append before] at body
      exact anchors.last later after ((inBlock_append before rest).mp inBlock) body
        ((hasText_append before rest).mp text)
    · exact quiet later (Nat.le_of_not_lt before) inBlock text

/-- **The walk behind the header** finds the anchor of its block. -/
theorem lastBodyFrom_anchors (rest : List Text) (behind : header < seen.length)
    (inside : ∀ between, header < between → headerAt seen between = none)
    (anchors : Anchors seen (InBlock seen header) header last) :
    Anchors (seen ++ rest) (InBlock (seen ++ rest) header) header (lastBodyFrom seen.length last rest) := by
  induction rest generalizing seen last with
  | nil =>
    rw [List.append_nil]
    exact anchors
  | cons raw rest ih =>
    have shape : seen ++ raw :: rest = seen ++ [raw] ++ rest := List.append_cons seen raw rest
    have here : headerAt (seen ++ raw :: rest) seen.length = headerKey raw := by
      rw [shape, headerAt_append (by rw [List.length_append, List.length_singleton]; exact Nat.lt_succ_self _)]
      exact headerAt_last seen raw
    rw [lastBodyFrom]
    split
    · rename_i opens
      -- the block ends here
      refine anchors.append fun idx late inBlock => ?_
      have none := headerKey_eq_none.mp (here.symm.trans (inBlock.2.2 seen.length behind late))
      rw [opens] at none
      cases none
    · rename_i body
      have noHeader := headerKey_eq_none.mpr (Bool.eq_false_iff.mpr body)
      have length : (seen ++ [raw]).length = seen.length + 1 := by rw [List.length_append, List.length_singleton]
      have inside' : ∀ between, header < between → headerAt (seen ++ [raw]) between = none := by
        intro between after
        cases opened : headerAt (seen ++ [raw]) between with
        | none => rfl
        | some key =>
          by_cases last : between = seen.length
          · rw [last, headerAt_last, noHeader] at opened
            cases opened
          · have early := lt_length_concat (headerAt_lt opened) last
            cases (inside between after).symm.trans ((headerAt_append early [raw]).symm.trans opened)
      have lastLine : ∀ {idx}, seen.length ≤ idx → InBlock (seen ++ [raw]) header idx → idx = seen.length := by
        intro idx late inBlock
        have early := inBlock.2.1
        rw [length] at early
        exact Nat.le_antisymm (Nat.le_of_lt_succ early) late
      rw [← length, shape]
      refine ih (by rw [length]; exact behind.trans (Nat.lt_succ_self _)) inside' ?_
      split
      · rename_i text
        refine ⟨Or.inr ⟨⟨behind, ?_, fun between after _ => inside' between after⟩, inside' _ behind, ?_⟩, ?_⟩
        · rw [length]
          exact Nat.lt_succ_self _
        · exact (hasText_last seen raw).mpr text
        · exact fun later after inBlock _ _ => absurd (lastLine after.le inBlock) (Nat.ne_of_gt after)
      · rename_i noText
        refine anchors.append fun idx late inBlock text => noText ?_
        rw [lastLine late inBlock] at text
        exact (hasText_last seen raw).mp text

end Lines

/-- The walk of `patch_dosnet_inf` from a header on. -/
theorem anchors_lastBodyFrom {all : List Text} {key : Text} {header : Nat}
    (opens : headerAt all header = some key) :
    Anchors all (InBlock all header) header (lastBodyFrom (header + 1) header (all.drop (header + 1))) := by
  have length : (all.take (header + 1)).length = header + 1 := List.length_take_of_le (headerAt_lt opens)
  have nothing : ∀ between, header < between → headerAt (all.take (header + 1)) between = none := by
    intro between after
    rw [headerAt, List.getElem?_eq_none]
    · rfl
    · rw [length]
      exact after
  have start : Anchors (all.take (header + 1)) (InBlock (all.take (header + 1)) header) header header := by
    refine ⟨Or.inl rfl, fun later after inBlock _ _ => ?_⟩
    have early := inBlock.2.1
    rw [length] at early
    exact Nat.not_lt_of_le (Nat.le_of_lt_succ early) after
  have behind : header < (all.take (header + 1)).length := by
    rw [length]
    exact Nat.lt_succ_self _
  have walked := lastBodyFrom_anchors (all.drop (header + 1)) behind nothing start
  rwa [length, List.take_append_drop] at walked

/-- The anchor is the one of the last `[Files]` block: its last line with text, or its header. -/
def InLastBlock (all : List Text) (anchor : Nat) : Prop :=
  ∃ header, LastHeader all "files".toList header ∧ Anchors all (InBlock all header) header anchor

/-- The lines of the files behind an anchor. -/
def dosnetGroup (files : List Text) (anchor idx : Nat) : List Text :=
  if idx = anchor then files.map dosnetLine else []

/-! ### The patched text -/

theorem dosnetLine_newline {file : Text} (absent : '\n' ∉ file) : '\n' ∉ dosnetLine file := by
  rw [dosnetLine, List.mem_append, not_or]
  exact ⟨by decide, newline_not_mem_lower absent⟩

/-- The lines of files without line feeds are read back as they were put in. -/
theorem splitCrlf_dosnet {files : List Text} (clean : ∀ file ∈ files, '\n' ∉ file) (text : Text)
    (anchor : Nat) :
    splitCrlf (joinCrlf (splice (fun idx => if idx = anchor then files.map dosnetLine else []) 0 (splitCrlf text)))
      = splice (fun idx => if idx = anchor then files.map dosnetLine else []) 0 (splitCrlf text) := by
  refine splitCrlf_joinCrlf (splice_ne_nil _ _ (splitCrlf_ne_nil _)) fun line member => ?_
  rcases mem_splice member with old | ⟨idx, new⟩
  · exact crlfFree_of_mem old
  · split at new
    · obtain ⟨file, inFiles, rfl⟩ := List.mem_map.mp new
      exact crlfFree_of_newline (dosnetLine_newline (clean file inFiles))
    · cases new

/-- The patched text is the old one with the lines of the files put into the last `[Files]` block, and deleting
them gives the old one back. -/
structure DosnetPatched (text patched : Text) (files : List Text) (anchor : Nat) : Prop where
  place : InLastBlock (splitCrlf text) anchor
  inserted : patched = joinCrlf ((spliceMarked (dosnetGroup files anchor) 0 (splitCrlf text)).map Prod.fst)
  deleted : joinCrlf (((spliceMarked (dosnetGroup files anchor) 0 (splitCrlf text)).filter
    fun line => !line.2).map Prod.fst) = text
  lines : (∀ file ∈ files, '\n' ∉ file) →
    splitCrlf patched = (spliceMarked (dosnetGroup files anchor) 0 (splitCrlf text)).map Prod.fst

/-- A patch with files does what its scan and its walk say. -/
theorem patchDosnetInf_of_files {text : Text} {files : List Text} (nonempty : files ≠ []) :
    patchDosnetInf text files = Fallible.bail "DOSNET.INF has no [Files] section" ∧
        (∀ idx, headerAt (splitCrlf text) idx ≠ some "files".toList) ∨
      (∃ idx, headerAt (splitCrlf text) idx = some "files".toList) ∧
        ∃ patched anchor, patchDosnetInf text files = .ok patched ∧ DosnetPatched text patched files anchor := by
  unfold patchDosnetInf
  rw [if_neg nonempty]
  dsimp only
  rcases lastFilesHeader_cases (splitCrlf text) with ⟨none, nowhere⟩ | ⟨header, found, lastHeader⟩
  · rw [none]
    exact Or.inl ⟨rfl, nowhere⟩
  · rw [found]
    refine Or.inr ⟨⟨header, lastHeader.opens⟩, _, _, rfl, ⟨header, lastHeader, anchors_lastBodyFrom lastHeader.opens⟩,
      ?_, ?_, fun clean => ?_⟩
    · rw [spliceMarked_map_fst]
      rfl
    · rw [spliceMarked_filter, joinCrlf_splitCrlf]
    · rw [spliceMarked_map_fst]
      exact splitCrlf_dosnet clean text _

/-- **Patching `DOSNET.INF`** fails exactly when there are files and no `[Files]` header; else the files get
one group of lines in the last `[Files]` block. -/
theorem patchDosnetInf_lastBlock (text : Text) (files : List Text) :
    ((∃ failure, patchDosnetInf text files = .error failure) ↔
      files ≠ [] ∧ ∀ idx, headerAt (splitCrlf text) idx ≠ some "files".toList) ∧
    (files = [] → patchDosnetInf text files = .ok text) ∧
    ∀ patched, files ≠ [] → patchDosnetInf text files = .ok patched →
      ∃ anchor, DosnetPatched text patched files anchor := by
  have unpatched : files = [] → patchDosnetInf text files = .ok text := fun empty => if_pos empty
  refine ⟨⟨fun failed => ?_, fun both => ?_⟩, unpatched, fun patched nonempty run => ?_⟩
  · obtain ⟨failure, failed⟩ := failed
    have nonempty : files ≠ [] := fun empty => by cases (unpatched empty).symm.trans failed
    refine ⟨nonempty, ?_⟩
    rcases patchDosnetInf_of_files nonempty with ⟨-, nowhere⟩ | ⟨-, patched, anchor, run, -⟩
    · exact nowhere
    · cases run.symm.trans failed
  · rcases patchDosnetInf_of_files both.1 with ⟨failed, -⟩ | ⟨⟨idx, opens⟩, -⟩
    · exact ⟨_, failed⟩
    · exact absurd opens (both.2 idx)
  · rcases patchDosnetInf_of_files nonempty with ⟨failed, -⟩ | ⟨-, patched', anchor, run', done⟩
    · cases failed.symm.trans run
    · obtain rfl := Except.ok.inj (run.symm.trans run')
      exact ⟨anchor, done⟩

/-- The file of a pack goes to the second of two blocks; without a block it is refused. -/
theorem patchDosnetInf_lastBlock_sample :
    (∃ patched anchor, patchDosnetInf "[Files]\r\nd1,a\r\n[Files]\r\nd1,b\r\n\r\n[Dirs]".toList ["X.SYS".toList]
        = .ok patched ∧
      DosnetPatched "[Files]\r\nd1,a\r\n[Files]\r\nd1,b\r\n\r\n[Dirs]".toList patched ["X.SYS".toList] anchor) ∧
    ∃ failure, patchDosnetInf "[Dirs]".toList ["X.SYS".toList] = .error failure := by
  have patches : (patchDosnetInf "[Files]\r\nd1,a\r\n[Files]\r\nd1,b\r\n\r\n[Dirs]".toList
      ["X.SYS".toList]).toOption.isSome := by decide
  obtain ⟨patched, run⟩ := Fallible.exists_ok patches
  obtain ⟨anchor, done⟩ := (patchDosnetInf_lastBlock _ _).2.2 patched (List.cons_ne_nil _ _) run
  refine ⟨⟨patched, anchor, run, done⟩,
    (patchDosnetInf_lastBlock _ _).1.mpr ⟨List.cons_ne_nil _ _, fun idx opens => ?_⟩⟩
  have inside := headerAt_lt opens
  have length : (splitCrlf "[Dirs]".toList).length = 1 := by decide
  rw [length] at inside
  obtain rfl := Nat.lt_one_iff.mp inside
  exact absurd opens (by decide)

/-! ### The lines of the patched text -/

section Dosnet

variable {text patched : Text} {files : List Text}

/-- The anchor of a block is a line. -/
theorem Anchors.lt_length {all : List Text} {key : Text} {header anchor : Nat}
    (anchors : Anchors all (InBlock all header) header anchor) (opens : headerAt all header = some key) :
    anchor < all.length := by
  rcases anchors.here with rfl | ⟨inBlock, -, -⟩
  · exact headerAt_lt opens
  · exact inBlock.2.1

/-- **The lines of the patched text** are the old ones with one group put in, in a `[Files]` section. -/
theorem patchDosnetInf_lines (run : patchDosnetInf text files = .ok patched) (nonempty : files ≠ [])
    (clean : ∀ file ∈ files, '\n' ∉ file) :
    ∃ anchor, anchor < (splitCrlf text).length ∧
      sectionAt (splitCrlf text) anchor = some "files".toList ∧
      splitCrlf patched = splice (dosnetGroup files anchor) 0 (splitCrlf text) := by
  rcases patchDosnetInf_of_files nonempty with ⟨failed, -⟩ | ⟨-, patched', anchor, run', done⟩
  · cases failed.symm.trans run
  · obtain rfl := Except.ok.inj (run.symm.trans run')
    obtain ⟨header, lastHeader, anchors⟩ := done.place
    refine ⟨anchor, anchors.lt_length lastHeader.opens, anchors.sectionAt lastHeader.opens, ?_⟩
    rw [done.lines clean, spliceMarked_map_fst]

theorem dosnetLine_nodup (distinct : DistinctNames files) : (files.map dosnetLine).Nodup := by
  rw [List.Nodup, List.pairwise_map]
  exact distinct.imp fun different same => different (List.append_cancel_left same)

/-- **Each file gains one line**, and no other line is gained or lost. -/
theorem patchDosnetInf_count (run : patchDosnetInf text files = .ok patched) (nonempty : files ≠ [])
    (clean : ∀ file ∈ files, '\n' ∉ file) (distinct : DistinctNames files) (line : Text) :
    (splitCrlf patched).count line = (splitCrlf text).count line +
      if line ∈ files.map dosnetLine then 1 else 0 := by
  obtain ⟨anchor, inside, _, lines⟩ := patchDosnetInf_lines run nonempty clean
  have only : ∀ idx, idx ≠ anchor → dosnetGroup files anchor idx = [] := fun idx other => if_neg other
  have gained := count_splice (Nat.zero_le anchor) (by rw [Nat.zero_add]; exact inside) only line
  rw [lines, gained, dosnetGroup, if_pos rfl, (dosnetLine_nodup distinct).count]

end Dosnet

end Bootsmith.Driver
