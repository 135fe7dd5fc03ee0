/-
**One successful call on `\I386`.**

`Wrote` is what an append and a replacement have in common: the image stays staged, with the same
root and with `\I386` at the same place; bytes of the old image change only in the sectors of
`\I386`, in the size field of its record and in the volume size; the name just written has the new
extent at the end of the image, and every other name keeps its extent.

`appendFileToI386_wrote` and `replaceFileInI386_wrote` prove it for the two calls.
-/

import Bootsmith.Iso.Volume

namespace Bootsmith.Iso

open Bootsmith.Library

/-! ### Extents by key -/

section Extents

variable {raw : Bytes} {raws : List Bytes} {key : Bytes}

theorem fileExtent_cons_of_ne (different : isoSortKey (recordName raw) ≠ key) :
    fileExtent (raw :: raws) key = fileExtent raws key := by
  rw [fileExtent, List.find?_cons_of_neg (by simpa using different), fileExtent]

theorem fileExtent_cons_of_eq (same : isoSortKey (recordName raw) = key) :
    fileExtent (raw :: raws) key = some (leNat (subrange raw 2 6), leNat (subrange raw 10 14)) := by
  rw [fileExtent, List.find?_cons_of_pos (by simpa using same), Option.map_some]

theorem fileExtent_eq_none : fileExtent raws key = none ↔
    ∀ raw ∈ raws, isoSortKey (recordName raw) ≠ key := by
  simp [fileExtent]

/-- Sorting records by name keeps the first one of every name. -/
theorem fileExtent_sortBy : fileExtent (sortBy (fun raw => isoSortKey (recordName raw)) raws) key
    = fileExtent raws key := by
  rw [fileExtent, find?_sortBy, fileExtent]
  intro first second foundFirst foundSecond
  simp only [decide_eq_true_eq] at foundFirst foundSecond
  rw [foundFirst, foundSecond]
  exact List.le_refl key

/-- A record added behind the others is found under its own name only. -/
theorem fileExtent_concat (fresh : ∀ old ∈ raws, isoSortKey (recordName old) ≠ isoSortKey (recordName raw)) :
    fileExtent (raws ++ [raw]) key
      = if key = isoSortKey (recordName raw)
        then some (leNat (subrange raw 2 6), leNat (subrange raw 10 14)) else fileExtent raws key := by
  induction raws with
  | nil =>
    split
    · rename_i same
      exact fileExtent_cons_of_eq same.symm
    · rename_i different
      exact fileExtent_cons_of_ne fun same => different same.symm
  | cons head rest ih =>
    have ih := ih fun old member => fresh old (List.mem_cons_of_mem _ member)
    have headFresh := fresh head List.mem_cons_self
    by_cases same : isoSortKey (recordName head) = key
    · rw [List.cons_append, fileExtent_cons_of_eq same, fileExtent_cons_of_eq same,
        if_neg fun other => headFresh (same.trans other)]
    · rw [List.cons_append, fileExtent_cons_of_ne same, fileExtent_cons_of_ne same, ih]

end Extents

/-! ### Records replaced in place -/

section Replaced

variable {placed : List (Nat × Bytes)} {offset : Nat} {raw new : Bytes}
  (unique : ∀ entry ∈ placed, entry.1 = offset → entry = (offset, raw))

include unique

theorem parsed_replaced (change : DirectoryRecord → DirectoryRecord)
    (changed : recordOf offset new = change (recordOf offset raw)) :
    parsed (Scan.replaced offset new placed)
      = (parsed placed).map fun record => if record.offset = offset then change record else record := by
  rw [parsed, Scan.replaced, List.map_map, parsed, List.map_map]
  refine List.map_congr_left fun entry member => ?_
  by_cases here : entry.1 = offset
  · obtain rfl := unique entry member here
    simp only [Function.comp_apply, if_true, recordOf_offset, changed]
  · simp only [Function.comp_apply, here, if_false, recordOf_offset]

theorem fileExtent_replaced_of_ne (sameName : recordName new = recordName raw) {key : Bytes}
    (different : isoSortKey (recordName raw) ≠ key) :
    fileExtent ((Scan.replaced offset new placed).map Prod.snd) key
      = fileExtent (placed.map Prod.snd) key := by
  induction placed with
  | nil => rfl
  | cons entry rest ih =>
    have ih := ih fun other member => unique other (List.mem_cons_of_mem _ member)
    show fileExtent ((if entry.1 = offset then (offset, new) else entry).2 :: _) key
      = fileExtent (entry.2 :: rest.map Prod.snd) key
    by_cases here : entry.1 = offset
    · obtain rfl := unique entry List.mem_cons_self here
      rw [if_pos rfl, fileExtent_cons_of_ne (by rwa [sameName]), fileExtent_cons_of_ne different]
      exact ih
    · rw [if_neg here]
      by_cases same : isoSortKey (recordName entry.2) = key
      · rw [fileExtent_cons_of_eq same, fileExtent_cons_of_eq same]
      · rw [fileExtent_cons_of_ne same, fileExtent_cons_of_ne same]
        exact ih

theorem fileExtent_replaced (valid : ∀ entry ∈ placed, RawRecord entry.2)
    (sameName : recordName new = recordName raw) {name : Bytes} {existing : DirectoryRecord}
    (found : (parsed placed).find? (fun record => isoNameEq record.name name) = some existing)
    (here : existing.offset = offset) :
    fileExtent ((Scan.replaced offset new placed).map Prod.snd) (isoSortKey name)
      = some (leNat (subrange new 2 6), leNat (subrange new 10 14)) := by
  induction placed with
  | nil => cases found
  | cons entry rest ih =>
    have named := recordName_eq (valid entry List.mem_cons_self) entry.1
    show fileExtent ((if entry.1 = offset then (offset, new) else entry).2 :: _) _ = _
    by_cases first : isoNameEq (recordOf entry.1 entry.2).name name
    · obtain rfl : recordOf entry.1 entry.2 = existing := by
        have head : (recordOf entry.1 entry.2 :: parsed rest).find?
            (fun record => isoNameEq record.name name) = some _ := List.find?_cons_of_pos first
        exact Option.some.inj (head.symm.trans found)
      have here : entry.1 = offset := here
      obtain rfl := unique entry List.mem_cons_self here
      rw [if_pos rfl]
      refine fileExtent_cons_of_eq ?_
      rw [sameName, named]
      exact (isoNameEq_iff _ _).mp first
    · have inRest : (parsed rest).find? (fun record => isoNameEq record.name name) = some existing := by
        have head : (recordOf entry.1 entry.2 :: parsed rest).find?
            (fun record => isoNameEq record.name name) = _ := List.find?_cons_of_neg first
        exact head.symm.trans found
      have elsewhere : entry.1 ≠ offset := by
        intro atOffset
        obtain rfl := unique entry List.mem_cons_self atOffset
        obtain ⟨other, member, same⟩ := List.mem_map.mp (List.mem_of_find?_eq_some inRest)
        have found := List.find?_some inRest
        have again := unique other (List.mem_cons_of_mem _ member) (by rw [← here, ← same, recordOf])
        rw [again] at same
        rw [same] at first
        exact first found
      rw [if_neg elsewhere, fileExtent_cons_of_ne (by
        rw [named]
        exact fun same => first ((isoNameEq_iff _ _).mpr same))]
      exact ih (fun other member => unique other (List.mem_cons_of_mem _ member))
        (fun other member => valid other (List.mem_cons_of_mem _ member)) inRest

end Replaced

/-! ### The records behind the dot records -/

theorem StartsWithDots.placed {placed : List (Nat × Bytes)} (dots : StartsWithDots (parsed placed)) :
    ∃ dot dotdot rest, placed = dot :: dotdot :: rest ∧ (recordOf dot.1 dot.2).name = [0] ∧
      (recordOf dotdot.1 dotdot.2).name = [1] := by
  obtain ⟨dot, dotdot, rest, shape, first, second⟩ := dots
  rcases placed with _ | ⟨one, _ | ⟨two, others⟩⟩
  · cases shape
  · cases shape
  · simp only [parsed, List.map_cons, List.cons.injEq] at shape
    obtain ⟨rfl, rfl, _⟩ := shape
    exact ⟨one, two, others, rfl, first, second⟩

/-- An append sorts the records behind the dot records, the new one among them. -/
theorem sortedRecords_eq (image : Image) (dot dotdot : Nat × Bytes) (rest : List (Nat × Bytes))
    (fileName contents : Bytes) :
    sortedRecords image (dot :: dotdot :: rest) fileName contents
      = dot.2 :: dotdot.2 :: sortBy (fun raw => isoSortKey (recordName raw))
        (rest.map Prod.snd ++ [newRecord image fileName contents]) := by
  have long : (dot.2 :: dotdot.2 :: (rest.map Prod.snd ++ [newRecord image fileName contents])).length
      > 2 := by simp
  rw [sortedRecords]
  exact if_pos long

/-- The records an append writes, when the directory starts with `dot` and `dotdot`. -/
theorem withSize_sortedRecords (image : Image) (dot dotdot : Nat × Bytes) (rest : List (Nat × Bytes))
    (fileName contents : Bytes) (value : Nat) :
    withSize value (sortedRecords image (dot :: dotdot :: rest) fileName contents)
      = withField 10 value dot.2 :: dotdot.2 :: sortBy (fun raw => isoSortKey (recordName raw))
        (rest.map Prod.snd ++ [newRecord image fileName contents]) := by
  rw [sortedRecords_eq, withSize]

/-- The dot records stay in front. -/
theorem placements_dots {dot dotdot : Bytes} {tail : List Bytes} (start value : Nat)
    (valid : RawRecord dot) (fits : value < 2 ^ 32) (first : (recordOf 0 dot).name = [0])
    (second : (recordOf 0 dotdot).name = [1]) :
    StartsWithDots (parsed (placements start (withField 10 value dot :: dotdot :: tail))) := by
  refine ⟨_, _, _, rfl, ?_, second⟩
  show (recordOf _ (withField 10 value dot)).name = [0]
  rw [(withField_dataLen valid fits).2]
  exact first

theorem recordName_newRecord {image : Image} {directory : DirectoryRecord}
    {placed : List (Nat × Bytes)} {fileName contents : Bytes}
    (fits : AppendFits image directory placed fileName contents) :
    recordName (newRecord image fileName contents) = fileName ∧
      leNat (subrange (newRecord image fileName contents) 2 6) = nextLba image ∧
      leNat (subrange (newRecord image fileName contents) 10 14) = contents.length := by
  refine ⟨?_, leNat_write733 fits.lbaFits fileRecord_extentLba,
    leNat_write733 fits.lenFits fileRecord_dataLen⟩
  rw [recordName_eq (newRecord_valid fits.starts) 0, newRecord,
    recordOf_fileRecord fits.short fits.lbaFits fits.lenFits]

/-- A packed directory's records behind the first two come from the records behind the first two. -/
theorem mem_drop_placements {start : Nat} {first second : Bytes} {rest : List Bytes}
    {record : DirectoryRecord}
    (member : record ∈ (parsed (placements start (first :: second :: rest))).drop 2) :
    ∃ raw ∈ rest, record = recordOf record.offset raw := by
  obtain ⟨entry, inside, rfl⟩ := List.mem_map.mp member
  have raw := List.mem_map_of_mem (f := Prod.snd) inside
  rw [layout_map_snd] at raw
  exact ⟨entry.2, raw, rfl⟩

/-! ### What a call did -/

/-- Each record behind the dot records is an old one with its extent, or has the new extent. -/
def Kept (image : Image) (placed : List (Nat × Bytes)) (contents : Bytes)
    (placed' : List (Nat × Bytes)) : Prop :=
  ∀ record' ∈ (parsed placed').drop 2,
    (∃ record ∈ (parsed placed).drop 2, record'.name = record.name ∧
        record'.extentLba = record.extentLba ∧ record'.dataLen = record.dataLen) ∨
      (record'.extentLba = nextLba image ∧ record'.dataLen = contents.length)

/-- A record of the root, with the size `\I386` has now. -/
def resized (i386 record : DirectoryRecord) : DirectoryRecord :=
  if record.offset = i386.offset then { record with dataLen := i386.dataLen } else record

/-- What one successful call that writes `contents` under `name` did to a staged image. -/
structure Wrote (image : Image) (root i386 : DirectoryRecord) (rootPlaced placed : List (Nat × Bytes))
    (name contents : Bytes) (image' : Image) (i386' : DirectoryRecord)
    (rootPlaced' placed' : List (Nat × Bytes)) : Prop where
  staged : Staged image' root i386' rootPlaced' placed'
  offset : i386'.offset = i386.offset
  extentLba : i386'.extentLba = i386.extentLba
  sectors : i386'.sectors.Within i386.sectors
  rootRecords : parsed rootPlaced' = (parsed rootPlaced).map (resized i386')
  same : Image.SameOutside [i386.sectors, ⟨i386.offset + 10, 8⟩, volumeField] image image'
  named : fileExtent (placed'.map Prod.snd) (isoSortKey name) = some (nextLba image, contents.length)
  others : ∀ key, key ≠ isoSortKey name → key ≠ [0] → key ≠ [1] →
    fileExtent (placed'.map Prod.snd) key = fileExtent (placed.map Prod.snd) key
  kept : Kept image placed contents placed'
  atEnd : AtEnd (nextLba image) contents image'

theorem Clear.keep {image image' : Image} {i386 i386' record record' : DirectoryRecord}
    (clear : Clear image i386 record) (size : image.size ≤ image'.size)
    (offset : i386'.offset = i386.offset) (sectors : i386'.sectors.Within i386.sectors)
    (extentLba : record'.extentLba = record.extentLba) (dataLen : record'.dataLen = record.dataLen) :
    Clear image' i386' record' := by
  have start : record'.start = record.start := by
    rw [DirectoryRecord.start, extentLba, DirectoryRecord.start]
  unfold Clear DirectoryRecord.extent at *
  rw [start, dataLen, offset]
  exact clear.imp_right fun ⟨inside, apart, field, volume⟩ =>
    ⟨inside.trans size, apart.mono (Span.Within.refl _) sectors, field, volume⟩

namespace Staged

variable {image image' : Image} {root i386 : DirectoryRecord} {rootPlaced placed : List (Nat × Bytes)}
  {name contents : Bytes} (staged : Staged image root i386 rootPlaced placed)

include staged

/-- Contents at the end of the image lie clear of everything that is written in place. -/
theorem clear_atEnd (atEnd : AtEnd (nextLba image) contents image') {i386' record : DirectoryRecord}
    (offset : i386'.offset = i386.offset) (sectors : i386'.sectors.Within i386.sectors)
    (extentLba : record.extentLba = nextLba image) (dataLen : record.dataLen = contents.length) :
    Clear image' i386' record := by
  have site := staged.site
  have past := size_le_nextLba image
  have within := sectors_le_nextLba site
  have fieldInside := site.fieldInside
  have large := staged.large
  have below : volumeField.stop ≤ (pvdLba + 1) * sectorSize := by decide
  have inside := le_finalLen (nextLba image) contents
  have start : record.start = nextLba image * sectorSize := by rw [DirectoryRecord.start, extentLba]
  refine Or.inr ⟨?_, Or.inr ?_, Or.inr ?_, Or.inr ?_⟩
  · rw [start, dataLen, atEnd.size]
    exact inside
  · exact sectors.2.trans (within.trans start.ge)
  · show i386'.offset + 10 + 8 ≤ record.start
    omega
  · exact below.trans (large.trans (past.trans start.ge))

/-- The files of `\I386` stay clear of what is written in place. -/
theorem files_of_kept (atEnd : AtEnd (nextLba image) contents image')
    (size : image.size ≤ image'.size) {i386' : DirectoryRecord}
    (sectors : i386'.sectors.Within i386.sectors) (offset : i386'.offset = i386.offset)
    {placed' : List (Nat × Bytes)}
    (kept : Kept image placed contents placed') :
    ∀ record ∈ (parsed placed').drop 2, Clear image' i386' record := by
  intro record' member
  rcases kept record' member with ⟨record, listed, _, extentLba, dataLen⟩ | ⟨extentLba, dataLen⟩
  · exact (staged.files record listed).keep size offset sectors extentLba dataLen
  · exact staged.clear_atEnd atEnd offset sectors extentLba dataLen

/-- The root record stays the root record. -/
theorem rootRecord_keep {spans : List Span} (same : Image.SameOutside spans image image')
    (clear : ∀ span ∈ spans, span.Apart pvdSector ∨ span.Within volumeField) :
    ∃ raw, RootRecord image' raw ∧ root = recordOf rootOffset raw := by
  obtain ⟨raw, record, shape⟩ := staged.rootRecord
  have within := record.within_pvdSector
  have header : (⟨pvdOffset, 7⟩ : Span).Within pvdSector := by constructor <;> decide
  refine ⟨raw, record.congr same (fun span member => ?_) fun span member => ?_, shape⟩
  · rcases clear span member with apart | inVolume
    · exact apart.symm.mono header (Span.Within.refl _)
    · exact Span.Apart.mono (Or.inl (by decide)) (Span.Within.refl _) inVolume
  · rcases clear span member with apart | inVolume
    · exact apart.symm.mono within (Span.Within.refl _)
    · exact (RootRecord.apart_volumeField raw).mono (Span.Within.refl _) inVolume

/-- The root reads as before, apart from the new size of `\I386`. -/
theorem rootScan_resize {value : Nat} (fits : value < 2 ^ 32)
    (same : Image.SameOutside [i386.sectors, ⟨i386.offset + 10, 8⟩, volumeField] image image')
    (field : image'.slice (i386.offset + 10) 8 = write733 value) :
    ∃ rootPlaced', Scan image' (root.start + root.dataLen) root.start rootPlaced' ∧
      parsed rootPlaced' = (parsed rootPlaced).map (resized { i386 with dataLen := value }) := by
  obtain ⟨raw, member, shape, within⟩ := staged.entry
  obtain ⟨_, _, inside, valid, here⟩ := staged.rootScan.bounds_at member
  have minimum := valid.minimum
  have rootInside := staged.rootInside
  obtain ⟨valid', parsed'⟩ := withField_dataLen valid fits
  have length : (withField 10 value raw).length = raw.length := withField_length (by omega)
  have unchanged : ∀ index, root.start ≤ index → index < root.start + root.dataLen →
      ¬ (⟨i386.offset + 10, 8⟩ : Span).Holds index → image'.get index = image.get index := by
    intro index after before outside
    have inRoot : root.extent.Holds index := ⟨after, before⟩
    refine same.get index (by omega) fun span inSpans held => ?_
    simp only [List.mem_cons, List.not_mem_nil, or_false] at inSpans
    rcases inSpans with rfl | rfl | rfl
    · exact staged.clearRoot.symm.not_holds inRoot held
    · exact outside held
    · exact (staged.rootClear.mono (Span.Within.refl _) volumeField_within).not_holds inRoot held
  refine ⟨Scan.replaced i386.offset (withField 10 value raw) rootPlaced,
    staged.rootScan.overwrite member valid' length ?_ (fun index after before outside => ?_)
      same.size, ?_⟩
  · rw [length, ← here, Image.slice_length]
    refine slice_withField (by omega) field fun index after before outside => ?_
    have extent := within
    simp only [Span.Within, Span.stop, DirectoryRecord.extent] at extent
    exact unchanged index (by omega) (by omega) outside
  · refine unchanged index after before fun held => outside ?_
    simp only [Span.Holds, Span.stop] at *
    omega
  · exact parsed_replaced (fun entry listed here => staged.rootScan.eq_of_offset listed member here)
      (fun record => { record with dataLen := value }) (parsed' _)

/-- `\I386` is found in the root under its new size. -/
theorem find?_resized (i386' : DirectoryRecord) (offset : i386'.offset = i386.offset)
    {records : List DirectoryRecord} (rootRecords : records = (parsed rootPlaced).map (resized i386')) :
    records.find? (fun record => isoNameEq record.name (ascii "I386"))
      = some { i386 with dataLen := i386'.dataLen } := by
  have renamed : (fun record => isoNameEq record.name (ascii "I386")) ∘ resized i386'
      = fun record => isoNameEq record.name (ascii "I386") := by
    funext record
    simp only [Function.comp_apply, resized]
    split <;> rfl
  rw [rootRecords, List.find?_map, renamed, staged.named, Option.map_some, resized,
    if_pos offset.symm]

/-- Without a new size the root records stay. -/
theorem map_resized : (parsed rootPlaced).map (resized i386) = parsed rootPlaced := by
  obtain ⟨raw, member, shape, _⟩ := staged.entry
  refine (List.map_congr_left fun record listed => ?_).trans (List.map_id _)
  rw [resized]
  split
  · rename_i here
    obtain ⟨entry, inside, rfl⟩ := List.mem_map.mp listed
    obtain rfl := staged.rootScan.eq_of_offset inside member here
    rw [← shape]
    rfl
  · rfl

/-- **The append step.** -/
theorem append (fits : AppendFits image i386 placed name contents) :
    ∃ rootPlaced', Wrote image root i386 rootPlaced placed name contents
      (appendedImage image i386 (i386.offset + 10) placed name contents)
      { i386 with dataLen := newEnd image placed name contents } rootPlaced'
      (placements i386.start (withSize (newEnd image placed name contents)
        (sortedRecords image placed name contents))) := by
  have site := staged.site
  obtain ⟨same, field, scan, atEnd⟩ := appended_appendedImage staged.scan site fits
  generalize appendedImage image i386 (i386.offset + 10) placed name contents = image' at *
  have sectors : ({ i386 with dataLen := newEnd image placed name contents } :
      DirectoryRecord).sectors.Within i386.sectors :=
    ⟨le_rfl, Nat.add_le_add_left
      (alignUp_le sectorSize_pos fits.room (alignUp_dvd _ _)) _⟩
  obtain ⟨rootPlaced', rootScan', rootRecords⟩ := staged.rootScan_resize fits.sizeFits same field
  obtain ⟨dot, dotdot, rest, shape, dotName, dotdotName⟩ := StartsWithDots.placed staged.dots
  have valid : ∀ entry ∈ placed, RawRecord entry.2 := fun entry member =>
    (staged.scan.bounds member).2.2.2.1
  have dotValid := valid dot (by simp [shape])
  have dotdotValid := valid dotdot (by simp [shape])
  obtain ⟨dotValid', dotRecord'⟩ := withField_dataLen dotValid fits.sizeFits
  obtain ⟨newName, newExtent, newLen⟩ := recordName_newRecord fits
  have dotKey : isoSortKey (recordName (withField 10 (newEnd image placed name contents) dot.2))
      = [0] := by
    rw [recordName_eq dotValid' dot.1, dotRecord', dotName]
    decide
  have oldDotKey : isoSortKey (recordName dot.2) = [0] := by
    rw [recordName_eq dotValid dot.1, dotName]
    decide
  have dotdotKey : isoSortKey (recordName dotdot.2) = [1] := by
    rw [recordName_eq dotdotValid dotdot.1, dotdotName]
    decide
  have raws : placed.map Prod.snd = dot.2 :: dotdot.2 :: rest.map Prod.snd := by rw [shape]; rfl
  have absent : ∀ old ∈ placed.map Prod.snd, isoSortKey (recordName old) ≠ isoSortKey name := by
    intro old member
    obtain ⟨entry, inside, rfl⟩ := List.mem_map.mp member
    rw [recordName_eq (valid entry inside) entry.1]
    exact fits.absent _ (List.mem_map_of_mem inside)
  have written := withSize_sortedRecords image dot dotdot rest name contents
    (newEnd image placed name contents)
  rw [← shape] at written
  -- behind the dot records, a name is looked up as if the new record stood at the end
  have extents : ∀ key, key ≠ [0] → key ≠ [1] →
      fileExtent (withSize (newEnd image placed name contents)
        (sortedRecords image placed name contents)) key
        = if key = isoSortKey name then some (nextLba image, contents.length)
          else fileExtent (placed.map Prod.snd) key := by
    intro key notDot notDotdot
    rw [written, fileExtent_cons_of_ne (by rw [dotKey]; exact notDot.symm),
      fileExtent_cons_of_ne (by rw [dotdotKey]; exact notDotdot.symm), fileExtent_sortBy,
      fileExtent_concat, newName, newExtent, newLen, raws,
      fileExtent_cons_of_ne (by rw [oldDotKey]; exact notDot.symm),
      fileExtent_cons_of_ne (by rw [dotdotKey]; exact notDotdot.symm)]
    intro old member
    rw [newName]
    exact absent old (by simp [raws, member])
  have kept : Kept image placed contents (placements i386.start
      (withSize (newEnd image placed name contents) (sortedRecords image placed name contents))) := by
    intro record member
    rw [written] at member
    obtain ⟨raw, inside, same'⟩ := mem_drop_placements member
    rcases List.mem_append.mp ((sortBy_perm _ _).mem_iff.mp inside) with old | new
    · obtain ⟨entry, inRest, rfl⟩ := List.mem_map.mp old
      refine Or.inl ⟨recordOf entry.1 entry.2, ?_, by rw [same']; rfl, by rw [same']; rfl,
        by rw [same']; rfl⟩
      rw [shape]
      exact List.mem_map_of_mem inRest
    · rw [List.mem_singleton.mp new] at same'
      exact Or.inr ⟨by rw [same']; exact newExtent, by rw [same']; exact newLen⟩
  have staged' : Staged image' root { i386 with dataLen := newEnd image placed name contents }
      rootPlaced' (placements i386.start (withSize (newEnd image placed name contents)
        (sortedRecords image placed name contents))) := {
    rootRecord := staged.rootRecord_keep same (by
      simp only [List.mem_cons, List.not_mem_nil, or_false, forall_eq_or_imp, forall_eq]
      exact ⟨Or.inl staged.clear, Or.inl (staged.rootClear.mono staged.field_within (Span.Within.refl _)),
        Or.inr (Span.Within.refl _)⟩)
    rootScan := rootScan'
    rootInside := staged.rootInside.trans same.size
    rootClear := staged.rootClear
    named := staged.find?_resized
      { i386 with dataLen := newEnd image placed name contents } rfl rootRecords
    isDirectory := staged.isDirectory
    scan := scan
    dots := by
      rw [written]
      exact placements_dots _ _ dotValid fits.sizeFits dotName dotdotName
    inside := by
      have within := sectors_le_nextLba site
      have room := fits.room
      have ends := le_finalLen (nextLba image) contents
      rw [atEnd.size]
      show i386.start + newEnd image placed name contents ≤ _
      omega
    clear := staged.clear.mono sectors (Span.Within.refl _)
    clearRoot := staged.clearRoot.mono sectors (Span.Within.refl _)
    files := staged.files_of_kept atEnd same.size sectors rfl kept }
  refine ⟨rootPlaced', staged', rfl, rfl, sectors, rootRecords, same, ?_, fun key different notDot notDotdot => ?_,
    kept, atEnd⟩
  · rw [layout_map_snd, extents _ ?_ ?_, if_pos rfl]
    · rw [← oldDotKey]
      exact (absent _ (by simp [raws])).symm
    · rw [← dotdotKey]
      exact (absent _ (by simp [raws])).symm
  · rw [layout_map_snd, extents key notDot notDotdot, if_neg different]

/-- **The replacement step.** -/
theorem replace (fits : ReplaceFits image contents) {existing : DirectoryRecord}
    (found : (parsed placed).find? (fun record => isoNameEq record.name name) = some existing) :
    ∃ placed', Wrote image root i386 rootPlaced placed name contents
      (replacedImage image existing.offset contents) i386 rootPlaced placed' ∧
      parsed placed' = (parsed placed).map fun record =>
        if record.offset = existing.offset then
          { record with extentLba := nextLba image, dataLen := contents.length }
        else record := by
  have site := staged.site
  obtain ⟨entry, inPlaced, shape⟩ := List.mem_map.mp (List.mem_of_find?_eq_some found)
  obtain ⟨after, before, inside, rawValid, here⟩ := staged.scan.bounds inPlaced
  have minimum := rawValid.minimum
  have offset : existing.offset = entry.1 := by rw [← shape, recordOf_offset]
  have existingName : isoSortKey (recordName entry.2) = isoSortKey name := by
    have test := List.find?_some found
    rw [recordName_eq rawValid entry.1, shape]
    exact (isoNameEq_iff _ _).mp test
  have replaced : Replaced image existing.offset contents _ :=
    replaced_replacedImage staged.large (by omega) fits
  obtain ⟨same, rescan, atEnd⟩ := replaced
  generalize replacedImage image existing.offset contents = image' at *
  rw [offset]
  rw [offset] at same rescan
  obtain ⟨valid', length, retargetedRecord⟩ := retargeted_valid rawValid fits.lbaFits fits.lenFits
  generalize renewed : retargeted (nextLba image) contents.length entry.2 = new at *
  have unique : ∀ other ∈ placed, other.1 = entry.1 → other = (entry.1, entry.2) :=
    fun other listed here => staged.scan.eq_of_offset listed inPlaced here
  have newName : recordName new = recordName entry.2 := by
    rw [recordName_eq valid' entry.1, recordName_eq rawValid entry.1, retargetedRecord]
  have newExtent : leNat (subrange new 2 6) = nextLba image :=
    congrArg DirectoryRecord.extentLba (retargetedRecord entry.1)
  have newLen : leNat (subrange new 10 14) = contents.length :=
    congrArg DirectoryRecord.dataLen (retargetedRecord entry.1)
  -- the record lies in `\I386`, clear of the root and of the volume descriptor
  have recordIn : (⟨entry.1 + 2, 16⟩ : Span).Within i386.sectors := by
    have extent := i386.extent_within_sectors
    simp only [Span.Within, Span.stop, DirectoryRecord.extent, DirectoryRecord.sectors] at *
    omega
  have frame : Image.SameOutside [i386.sectors, ⟨i386.offset + 10, 8⟩, volumeField] image image' := by
    refine same.mono ?_
    simp only [List.mem_cons, List.not_mem_nil, or_false, forall_eq_or_imp, forall_eq]
    exact ⟨⟨_, Or.inl rfl, recordIn⟩, ⟨_, Or.inr (Or.inr rfl), Span.Within.refl _⟩⟩
  have records := parsed_replaced unique
    (fun record => { record with extentLba := nextLba image, dataLen := contents.length })
    (retargetedRecord entry.1)
  have kept : Kept image placed contents (Scan.replaced entry.1 new placed) := by
    intro record member
    rw [records, ← List.map_drop] at member
    obtain ⟨old, listed, rfl⟩ := List.mem_map.mp member
    split
    · exact Or.inr ⟨rfl, rfl⟩
    · exact Or.inl ⟨old, listed, rfl, rfl, rfl⟩
  have staged' : Staged image' root i386 rootPlaced (Scan.replaced entry.1 new placed) := {
    rootRecord := staged.rootRecord_keep same (by
      simp only [List.mem_cons, List.not_mem_nil, or_false, forall_eq_or_imp, forall_eq]
      exact ⟨Or.inl (staged.clear.mono recordIn (Span.Within.refl _)), Or.inr (Span.Within.refl _)⟩)
    rootScan := staged.rootScan.congr (fun index after before => by
      have rootInside := staged.rootInside
      have inRoot : root.extent.Holds index := ⟨after, before⟩
      refine same.get index (by omega) fun span inSpans held => ?_
      simp only [List.mem_cons, List.not_mem_nil, or_false] at inSpans
      rcases inSpans with rfl | rfl
      · exact staged.clearRoot.symm.not_holds inRoot (recordIn.holds held)
      · exact (staged.rootClear.mono (Span.Within.refl _) volumeField_within).not_holds inRoot held)
      same.size
    rootInside := staged.rootInside.trans same.size
    rootClear := staged.rootClear
    named := staged.named
    isDirectory := staged.isDirectory
    scan := renewed ▸ rescan _ _ _ _ staged.scan inPlaced (fun index after before held =>
      site.clearVolume.not_holds (i386.extent_within_sectors.holds ⟨after, before⟩) held)
      staged.inside
    dots := by
      obtain ⟨dot, dotdot, rest, split, first, second⟩ := staged.dots
      rw [records, split]
      refine ⟨_, _, _, rfl, ?_, ?_⟩
      · dsimp only
        split <;> exact first
      · dsimp only
        split <;> exact second
    inside := staged.inside.trans same.size
    clear := staged.clear
    clearRoot := staged.clearRoot
    files := staged.files_of_kept atEnd same.size (Span.Within.refl _) rfl kept }
  refine ⟨_, ⟨staged', rfl, rfl, Span.Within.refl _, staged.map_resized.symm, frame, ?_, fun key different _ _ => ?_,
    kept, atEnd⟩, records⟩
  · rw [fileExtent_replaced unique (fun other listed => (staged.scan.bounds listed).2.2.2.1) newName
      found offset, newExtent, newLen]
  · exact fileExtent_replaced_of_ne unique newName fun same => different (same.symm.trans existingName)

end Staged

end Bootsmith.Iso
