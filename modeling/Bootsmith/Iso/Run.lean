/-
**Any sequence of calls on `\I386`.**

A call acts on the files of `\I386` as on a map from sort keys to contents (`Call.act`): an append
inserts an absent key, a replacement overwrites a present one. The image represents the map
(`Represents`) when every name reads as its key in the map; the two dot records take part as keys
that are always present, but what reading them gives is not part of the map.

* `Call.wrote` and `Represents.step` are the step, `Staged.runCalls` and `Staged.run_frame` the
  run by induction;
* `runCalls_refines`: a run of successful calls on a well-formed image is the run of the map.
-/

import Bootsmith.Iso.Steps
import Bootsmith.Iso.Plant

namespace Bootsmith.Iso

open Bootsmith.Library

/-! ### Calls -/

/-- A call on a staged image. -/
inductive Call
  | append (fileName contents : Bytes)
  | replace (fileName contents : Bytes)
  | inject (contents : Bytes)
  deriving DecidableEq, Repr

namespace Call

/-- The name a call writes. -/
def fileName : Call → Bytes
  | append fileName _ => fileName
  | replace fileName _ => fileName
  | inject _ => winntSifName

/-- The contents a call writes. -/
def contents : Call → Bytes
  | append _ contents => contents
  | replace _ contents => contents
  | inject contents => contents

/-- The call on the image. -/
def run : Call → Effect Image Unit
  | append fileName contents => appendFileToI386 fileName contents
  | replace fileName contents => replaceFileInI386 fileName contents
  | inject contents => injectWinntSif contents

end Call

/-- The calls one after the other, up to the first failure. -/
def runCalls : List Call → Effect Image Unit
  | [] => pure ()
  | call :: calls => do
    call.run
    runCalls calls

theorem runCalls_cons (call : Call) (calls : List Call) (image image' : Image) (value : Unit) :
    (runCalls (call :: calls)).run image = .ok value image' ↔
      ∃ middle, call.run.run image = .ok () middle ∧
        (runCalls calls).run middle = .ok value image' := by
  rw [runCalls, Effect.bind_eq_ok]
  exact ⟨fun ⟨_, middle, one, rest⟩ => ⟨middle, one, rest⟩,
    fun ⟨middle, one, rest⟩ => ⟨(), middle, one, rest⟩⟩

/-! ### The map of files -/

/-- The contents under every sort key. -/
abbrev FileMap := Bytes → Option Bytes

/-- Put contents under a key. -/
def FileMap.insert (files : FileMap) (key contents : Bytes) : FileMap :=
  fun other => if other = key then some contents else files other

/-- What a call does to the map: nothing when an appended key is present or a replaced one absent. -/
def Call.act (call : Call) (files : FileMap) : Option FileMap :=
  let key := isoSortKey call.fileName
  match call with
  | .append _ contents => if (files key).isNone then some (files.insert key contents) else none
  | .replace _ contents => if (files key).isSome then some (files.insert key contents) else none
  | .inject contents => if (files key).isNone then some (files.insert key contents) else none

theorem Call.act_eq_some {call : Call} {files files' : FileMap} (acts : call.act files = some files') :
    files' = files.insert (isoSortKey call.fileName) call.contents := by
  cases call with
  | append fileName contents => exact (Option.some.inj (Option.ite_none_right_eq_some.mp acts).2).symm
  | replace fileName contents => exact (Option.some.inj (Option.ite_none_right_eq_some.mp acts).2).symm
  | inject contents => exact (Option.some.inj (Option.ite_none_right_eq_some.mp acts).2).symm

def actAll : List Call → FileMap → Option FileMap
  | [], files => some files
  | call :: calls, files => (call.act files).bind (actAll calls)

/-- The name is not one of the two dot records. -/
def NotDot (fileName : Bytes) : Prop := isoSortKey fileName ≠ [0] ∧ isoSortKey fileName ≠ [1]

/-- Every name reads as the map says; the dot records are there. -/
structure Represents (image : Image) (files : FileMap) : Prop where
  reads : ∀ fileName, NotDot fileName →
    readFileFromI386 image fileName = .ok (files (isoSortKey fileName))
  dot : (files [0]).isSome
  dotdot : (files [1]).isSome

/-! ### One call -/

section OneCall

variable {image image' : Image} {root i386 : DirectoryRecord} {rootPlaced placed : List (Nat × Bytes)}

theorem appendFileToI386_run {fileName contents : Bytes} {value : Unit}
    (staged : Staged image root i386 rootPlaced placed) :
    (appendFileToI386 fileName contents).run image = .ok value image' ↔
      AppendFits image i386 placed fileName contents ∧
        image' = appendedImage image i386 (i386.offset + 10) placed fileName contents := by
  have opened : openIsoRw image = .ok () := if_neg (not_lt.mpr staged.large)
  rw [appendFileToI386, Effect.query_bind openIsoRw opened]
  exact appendFileInto_eq_ok staged.findI386 staged.scan staged.site

theorem replaceFileInI386_run {fileName contents : Bytes} {value : Unit}
    (staged : Staged image root i386 rootPlaced placed) :
    (replaceFileInI386 fileName contents).run image = .ok value image' ↔
      ReplaceFits image contents ∧
        ∃ existing, (parsed placed).find? (fun record => isoNameEq record.name fileName)
            = some existing ∧ image' = replacedImage image existing.offset contents := by
  have opened : openIsoRw image = .ok () := if_neg (not_lt.mpr staged.large)
  rw [replaceFileInI386, Effect.query_bind openIsoRw opened]
  exact replaceFileIntoI386_eq_ok staged.findI386 staged.scan

/-- Whether the name has to be in the directory already. -/
def Call.Admitted (call : Call) (placed : List (Nat × Bytes)) : Prop :=
  match call with
  | .replace fileName _ => (fileExtent (placed.map Prod.snd) (isoSortKey fileName)).isSome
  | call => fileExtent (placed.map Prod.snd) (isoSortKey call.fileName) = none

theorem fileExtent_of_absent {fileName : Bytes} {stop pos : Nat} (scan : Scan image stop pos placed)
    (absent : ∀ record ∈ parsed placed, isoSortKey record.name ≠ isoSortKey fileName) :
    fileExtent (placed.map Prod.snd) (isoSortKey fileName) = none := by
  rw [fileExtent_eq_none]
  intro raw member
  obtain ⟨entry, inside, rfl⟩ := List.mem_map.mp member
  rw [recordName_eq (scan.bounds inside).2.2.2.1 entry.1]
  exact absent _ (List.mem_map_of_mem inside)

/-- **What a successful call did.** -/
theorem Call.wrote {call : Call} {value : Unit} (staged : Staged image root i386 rootPlaced placed)
    (run : call.run.run image = .ok value image') :
    call.Admitted placed ∧ ∃ i386' rootPlaced' placed',
      Wrote image root i386 rootPlaced placed call.fileName call.contents image' i386' rootPlaced' placed' := by
  have appended : ∀ fileName contents,
      (appendFileToI386 fileName contents).run image = .ok value image' →
      fileExtent (placed.map Prod.snd) (isoSortKey fileName) = none ∧
        ∃ i386' rootPlaced' placed',
          Wrote image root i386 rootPlaced placed fileName contents image' i386' rootPlaced' placed' := by
    intro fileName contents run
    obtain ⟨fits, rfl⟩ := (appendFileToI386_run staged).mp run
    obtain ⟨rootPlaced', wrote⟩ := staged.append fits
    exact ⟨fileExtent_of_absent staged.scan fits.absent, _, rootPlaced', _, wrote⟩
  cases call with
  | append fileName contents => exact appended fileName contents run
  | replace fileName contents =>
    obtain ⟨fits, existing, found, rfl⟩ := (replaceFileInI386_run staged).mp run
    obtain ⟨placed', wrote, _⟩ := staged.replace fits found
    refine ⟨?_, i386, rootPlaced, placed', wrote⟩
    show (fileExtent _ _).isSome
    rw [← find?_parsed fun entry member => (staged.scan.bounds member).2.2.2.1, found]
    rfl
  | inject contents =>
    have run : (injectWinntSif contents).run image = .ok value image' := run
    rw [injectWinntSif] at run
    split at run
    · simp at run
    · exact appended winntSifName contents run

/-- The extent of a name that is not a dot record belongs to a record behind them. -/
theorem Staged.clear_of_fileExtent (staged : Staged image root i386 rootPlaced placed) {key : Bytes}
    (notDot : key ≠ [0] ∧ key ≠ [1]) {extent : Nat × Nat}
    (found : fileExtent (placed.map Prod.snd) key = some extent) :
    ∃ record, Clear image i386 record ∧ extent = (record.extentLba, record.dataLen) := by
  obtain ⟨raw, foundRaw, rfl⟩ := Option.map_eq_some_iff.mp found
  obtain ⟨entry, member, rfl⟩ := List.mem_map.mp (List.mem_of_find?_eq_some foundRaw)
  have named := recordName_eq (staged.scan.bounds member).2.2.2.1 entry.1
  have key : isoSortKey (recordName entry.2) = key := by simpa using List.find?_some foundRaw
  have dot : isoSortKey [0] = [0] := by decide
  have dotdot : isoSortKey [1] = [1] := by decide
  refine ⟨recordOf entry.1 entry.2, staged.files _ (staged.dots.mem_drop (List.mem_map_of_mem member)
    ⟨fun name => notDot.1 ?_, fun name => notDot.2 ?_⟩), rfl⟩
  · rw [← key, named, name, dot]
  · rw [← key, named, name, dotdot]

/-- An extent in the image, clear of what a call writes in place, keeps its bytes. -/
theorem Clear.extentBytes_eq {record : DirectoryRecord} (clear : Clear image i386 record)
    (same : Image.SameOutside [i386.sectors, ⟨i386.offset + 10, 8⟩, volumeField] image image') :
    extentBytes image' (record.extentLba, record.dataLen)
      = extentBytes image (record.extentLba, record.dataLen) := by
  rcases clear with empty | ⟨inside, apart, field, volume⟩
  · rw [extentBytes, extentBytes, empty, Image.slice_zero, Image.slice_zero]
  · refine same.slice inside ?_
    simp only [List.mem_cons, List.not_mem_nil, or_false, forall_eq_or_imp, forall_eq]
    exact ⟨apart, field, volume⟩

/-- **Reading a staged image by name.** -/
theorem Staged.readFile_of_notDot (staged : Staged image root i386 rootPlaced placed)
    {fileName : Bytes} (notDot : NotDot fileName) :
    readFileFromI386 image fileName
      = .ok ((fileExtent (placed.map Prod.snd) (isoSortKey fileName)).map (extentBytes image)) := by
  refine staged.readFile.mpr ⟨fun extent found => ?_, rfl⟩
  obtain ⟨record, clear, rfl⟩ := staged.clear_of_fileExtent notDot found
  exact clear.imp_right And.left

/-- **The name just written reads back.** -/
theorem Wrote.readFile {fileName contents : Bytes} {i386' : DirectoryRecord}
    {rootPlaced' placed' : List (Nat × Bytes)}
    (wrote : Wrote image root i386 rootPlaced placed fileName contents image' i386' rootPlaced' placed') :
    readFileFromI386 image' fileName = .ok (some contents) := by
  have ends := le_finalLen (nextLba image) contents
  refine wrote.staged.readFile.mpr ⟨fun extent found => ?_, ?_⟩
  · rw [wrote.named] at found
    obtain rfl := Option.some.inj found
    exact Or.inr (by rw [wrote.atEnd.size]; exact ends)
  · rw [wrote.named, Option.map_some, extentBytes, wrote.atEnd.stored]

theorem Staged.dot_isSome (staged : Staged image root i386 rootPlaced placed) :
    (fileExtent (placed.map Prod.snd) [0]).isSome ∧ (fileExtent (placed.map Prod.snd) [1]).isSome := by
  obtain ⟨dot, dotdot, rest, rfl, dotName, dotdotName⟩ := StartsWithDots.placed staged.dots
  have valid : ∀ entry ∈ dot :: dotdot :: rest, RawRecord entry.2 := fun entry member =>
    (staged.scan.bounds member).2.2.2.1
  have first := recordName_eq (valid dot (by simp)) dot.1
  have second := recordName_eq (valid dotdot (by simp)) dotdot.1
  rw [dotName] at first
  rw [dotdotName] at second
  simp only [Option.isSome_iff_ne_none, ne_eq, fileExtent_eq_none, not_forall, not_not]
  exact ⟨⟨dot.2, by simp, by rw [first]; decide⟩, ⟨dotdot.2, by simp, by rw [second]; decide⟩⟩

/-- **The call does to the map what it did to the image.** -/
theorem Represents.step {call : Call} {files : FileMap} {i386' : DirectoryRecord}
    {rootPlaced' placed' : List (Nat × Bytes)} (before : Represents image files)
    (staged : Staged image root i386 rootPlaced placed) (admitted : call.Admitted placed)
    (wrote : Wrote image root i386 rootPlaced placed call.fileName call.contents image' i386' rootPlaced'
      placed') :
    ∃ files', call.act files = some files' ∧ Represents image' files' := by
  obtain ⟨hasDot, hasDotdot⟩ := staged.dot_isSome
  have lookup : ∀ fileName, NotDot fileName → files (isoSortKey fileName)
      = (fileExtent (placed.map Prod.snd) (isoSortKey fileName)).map (extentBytes image) :=
    fun fileName notDot =>
      Except.ok.inj ((before.reads fileName notDot).symm.trans (staged.readFile_of_notDot notDot))
  have acts : call.act files
      = some (files.insert (isoSortKey call.fileName) call.contents) := by
    by_cases notDot : NotDot call.fileName
    · have here := lookup call.fileName notDot
      cases call <;> simp_all [Call.act, Call.Admitted, Call.fileName, Call.contents]
    · -- a dot record is present, so only a replacement is admitted
      have present : (files (isoSortKey call.fileName)).isSome ∧
          (fileExtent (placed.map Prod.snd) (isoSortKey call.fileName)).isSome := by
        rcases not_and_or.mp notDot with dot | dotdot
        · rw [not_not.mp dot]
          exact ⟨before.dot, hasDot⟩
        · rw [not_not.mp dotdot]
          exact ⟨before.dotdot, hasDotdot⟩
      cases call <;> simp_all [Call.act, Call.Admitted, Call.fileName, Call.contents]
  refine ⟨_, acts, ⟨fun fileName notDot => ?_, ?_, ?_⟩⟩
  · rw [wrote.staged.readFile_of_notDot notDot, FileMap.insert]
    split
    · rename_i sameKey
      rw [sameKey, wrote.named, Option.map_some, extentBytes, wrote.atEnd.stored]
    · rename_i otherKey
      rw [wrote.others _ otherKey notDot.1 notDot.2, lookup fileName notDot]
      cases found : fileExtent (placed.map Prod.snd) (isoSortKey fileName) with
      | none => rfl
      | some extent =>
        obtain ⟨record, clear, rfl⟩ := staged.clear_of_fileExtent notDot found
        rw [Option.map_some, Option.map_some, clear.extentBytes_eq wrote.same]
  · rw [FileMap.insert]
    split
    · rfl
    · exact before.dot
  · rw [FileMap.insert]
    split
    · rfl
    · exact before.dotdot

/-- The image is staged, and its files are those of the map. -/
def StoresFiles (image : Image) (files : FileMap) : Prop :=
  ∃ root i386 rootPlaced placed, Staged image root i386 rootPlaced placed ∧ Represents image files

/-- **A successful call keeps the map.** -/
theorem StoresFiles.call {call : Call} {files : FileMap} {value : Unit}
    (stores : StoresFiles image files) (run : call.run.run image = .ok value image') :
    ∃ files', call.act files = some files' ∧ StoresFiles image' files' := by
  obtain ⟨root, i386, rootPlaced, placed, staged, before⟩ := stores
  obtain ⟨admitted, i386', rootPlaced', placed', wrote⟩ := call.wrote staged run
  obtain ⟨files', acts, after⟩ := before.step staged admitted wrote
  exact ⟨files', acts, root, i386', rootPlaced', placed', wrote.staged, after⟩

end OneCall

/-! ### A run -/

section WholeRun

variable {image image' : Image} {root i386 : DirectoryRecord} {rootPlaced placed : List (Nat × Bytes)}

/-- The map of the files of a staged image. -/
def stagedFiles (image : Image) (placed : List (Nat × Bytes)) : FileMap := fun key =>
  (fileExtent (placed.map Prod.snd) key).map (extentBytes image)

theorem Staged.represents (staged : Staged image root i386 rootPlaced placed) :
    Represents image (stagedFiles image placed) where
  reads _ notDot := staged.readFile_of_notDot notDot
  dot := by simpa [stagedFiles] using staged.dot_isSome.1
  dotdot := by simpa [stagedFiles] using staged.dot_isSome.2

/-- **A run on a staged image** is the run of the map, and its last name reads back. -/
theorem Staged.runCalls {calls : List Call} {value : Unit} {files : FileMap}
    (staged : Staged image root i386 rootPlaced placed)
    (run : (runCalls calls).run image = .ok value image') (before : Represents image files) :
    ∃ files', actAll calls files = some files' ∧ Represents image' files' ∧
      ∀ call, calls.getLast? = some call →
        readFileFromI386 image' call.fileName = .ok (some call.contents) := by
  induction calls generalizing image i386 rootPlaced placed files with
  | nil =>
    obtain ⟨_, rfl⟩ := (Effect.pure_eq_ok _ _ _ _).mp run
    exact ⟨files, rfl, before, fun call last => by cases last⟩
  | cons call calls ih =>
    obtain ⟨middle, one, rest⟩ := (runCalls_cons _ _ _ _ _).mp run
    obtain ⟨admitted, i386', rootPlaced', placed', wrote⟩ := call.wrote staged one
    obtain ⟨between, acts, represents⟩ := before.step staged admitted wrote
    obtain ⟨files', acted, after, last⟩ := ih wrote.staged rest represents
    refine ⟨files', by rw [actAll, acts]; exact acted, after, fun final isLast => ?_⟩
    cases calls with
    | nil =>
      obtain rfl : call = final := by simpa using isLast
      obtain ⟨_, rfl⟩ := (Effect.pure_eq_ok _ _ _ _).mp rest
      exact wrote.readFile
    | cons next others => exact last final (by simpa using isLast)

/-- **The frame of a run**: the original bytes change in three ranges only, and the records behind
the dot records keep their extents or get one behind the original image. -/
theorem Staged.run_frame {calls : List Call} {value : Unit}
    (staged : Staged image root i386 rootPlaced placed)
    (run : (Iso.runCalls calls).run image = .ok value image') :
    Image.SameOutside [i386.sectors, ⟨i386.offset + 10, 8⟩, volumeField] image image' ∧
      ∃ i386' rootPlaced' placed', Staged image' root i386' rootPlaced' placed' ∧
        i386'.offset = i386.offset ∧ i386'.extentLba = i386.extentLba ∧
        parsed rootPlaced' = (parsed rootPlaced).map (resized i386') ∧
        ∀ record' ∈ (parsed placed').drop 2,
          (∃ record ∈ (parsed placed).drop 2, record'.name = record.name ∧
            record'.extentLba = record.extentLba ∧ record'.dataLen = record.dataLen) ∨
          image.size ≤ record'.start := by
  induction calls generalizing image i386 rootPlaced placed with
  | nil =>
    obtain ⟨_, rfl⟩ := (Effect.pure_eq_ok _ _ _ _).mp run
    exact ⟨.refl _ _, i386, rootPlaced, placed, staged, rfl, rfl, staged.map_resized.symm,
      fun record' member => Or.inl ⟨record', member, rfl, rfl, rfl⟩⟩
  | cons call calls ih =>
    obtain ⟨middle, one, rest⟩ := (runCalls_cons _ _ _ _ _).mp run
    obtain ⟨_, i386', rootPlaced', placed', wrote⟩ := call.wrote staged one
    obtain ⟨same, i386'', rootPlaced'', placed'', staged'', offset', extentLba', rootRecords, kept⟩ :=
      ih wrote.staged rest
    have offset := wrote.offset
    refine ⟨wrote.same.trans (same.mono ?_), i386'', rootPlaced'', placed'', staged'',
      offset'.trans offset, extentLba'.trans wrote.extentLba, ?_, fun record'' member => ?_⟩
    · simp only [List.mem_cons, List.not_mem_nil, or_false, forall_eq_or_imp, forall_eq]
      exact ⟨⟨_, Or.inl rfl, wrote.sectors⟩, ⟨_, Or.inr (Or.inl rfl), by
        rw [offset]
        exact Span.Within.refl _⟩, ⟨_, Or.inr (Or.inr rfl), Span.Within.refl _⟩⟩
    · rw [rootRecords, wrote.rootRecords, List.map_map]
      refine List.map_congr_left fun record _ => ?_
      simp only [Function.comp_apply, resized, offset']
      split <;> simp_all
    · rcases kept record'' member with ⟨record', listed, name, extentLba, dataLen⟩ | past
      · rcases wrote.kept record' listed with ⟨record, inOld, name', extentLba', dataLen'⟩ | new
        · exact Or.inl ⟨record, inOld, name.trans name', extentLba.trans extentLba',
            dataLen.trans dataLen'⟩
        · have past := size_le_nextLba image
          exact Or.inr (by rwa [DirectoryRecord.start, extentLba, new.1])
      · exact Or.inr (wrote.same.size.trans past)

end WholeRun

/-! ### Runs on a well-formed image -/

theorem findI386_of_append {image image' : Image} {fileName contents : Bytes} {value : Unit}
    (run : (appendFileToI386 fileName contents).run image = .ok value image') :
    ∃ i386, findI386Record image = .ok i386 := by
  obtain ⟨_, _, opened, run⟩ := (Effect.bind_eq_ok _ _ _ _ _).mp run
  obtain ⟨_, rfl⟩ := (Effect.query_eq_ok _ _ _ _).mp opened
  rw [appendFileIntoI386, appendFileInto] at run
  split at run
  · simp at run
  · obtain ⟨i386, _, found, _⟩ := (Effect.bind_eq_ok _ _ _ _ _).mp run
    exact ⟨i386, ((Effect.query_eq_ok _ _ _ _).mp found).1⟩

theorem findI386_of_call {call : Call} {image image' : Image} {value : Unit}
    (run : call.run.run image = .ok value image') : ∃ i386, findI386Record image = .ok i386 := by
  cases call with
  | append fileName contents => exact findI386_of_append run
  | replace fileName contents =>
    obtain ⟨_, _, opened, run⟩ := (Effect.bind_eq_ok _ _ _ _ _).mp run
    obtain ⟨_, rfl⟩ := (Effect.query_eq_ok _ _ _ _).mp opened
    rw [replaceFileIntoI386] at run
    split at run
    · simp at run
    · obtain ⟨i386, _, found, _⟩ := (Effect.bind_eq_ok _ _ _ _ _).mp run
      exact ⟨i386, ((Effect.query_eq_ok _ _ _ _).mp found).1⟩
  | inject contents =>
    have run : (injectWinntSif contents).run image = .ok value image' := run
    rw [injectWinntSif] at run
    split at run
    · simp at run
    · exact findI386_of_append run

theorem findI386_of_readFile {image : Image} {fileName : Bytes} {contents : Option Bytes}
    (read : readFileFromI386 image fileName = .ok contents) :
    ∃ i386, findI386Record image = .ok i386 := by
  obtain ⟨_, _, read⟩ := (Fallible.bind_eq_ok _ _ _).mp read
  obtain ⟨i386, found, _⟩ := (Fallible.bind_eq_ok _ _ _).mp read
  exact ⟨i386, found⟩

theorem Represents.findI386 {image : Image} {files : FileMap} (represents : Represents image files) :
    ∃ i386, findI386Record image = .ok i386 :=
  findI386_of_readFile (represents.reads [] (by constructor <;> decide))

/-- **A run of successful calls acts on the files of `\I386` as on a map**: appends insert absent
keys, replacements overwrite present ones, and the name written last reads back. -/
theorem runCalls_refines {image image' : Image} {calls : List Call} {value : Unit}
    (wellFormed : WellFormed image) (run : (runCalls calls).run image = .ok value image') :
    (calls ≠ [] → ∃ files, Represents image files) ∧
      ∀ files, Represents image files →
        ∃ files', actAll calls files = some files' ∧ Represents image' files' ∧
          ∀ call, calls.getLast? = some call →
            readFileFromI386 image' call.fileName = .ok (some call.contents) := by
  constructor
  · intro nonempty
    obtain ⟨call, rest, rfl⟩ := List.exists_cons_of_ne_nil nonempty
    obtain ⟨middle, one, _⟩ := (runCalls_cons _ _ _ _ _).mp run
    obtain ⟨i386, found⟩ := findI386_of_call one
    obtain ⟨root, rootPlaced, placed, staged, _⟩ := wellFormed.staged found
    exact ⟨_, staged.represents⟩
  · intro files before
    obtain ⟨i386, found⟩ := before.findI386
    obtain ⟨root, rootPlaced, placed, staged, _⟩ := wellFormed.staged found
    exact staged.runCalls run before

/-- The append of a one-byte file to the sample volume without files. -/
theorem bareIso_append : (appendFileToI386 [65] [1]).run bareIso
    = .ok () (appendedImage bareIso (sampleI386 68) ((sampleI386 68).offset + 10)
      (placements (19 * sectorSize) bareRecords) [65] [1]) := by
  obtain ⟨root, rootPlaced, staged⟩ := bareIso_staged
  exact (appendFileToI386_run staged).mpr ⟨bareIso_appendFits, rfl⟩

/-- The records of `\I386` in the sample volume with two files, and the one of an append. -/
def appendedRecords : List Bytes :=
  [directoryRecord [0] 19 136, directoryRecord [1] 18 106, fileRecord [65] 22 1, fileRecord [66] 24 1,
    fileRecord [67] 23 1]

/-- The same, and the one of an answer file. -/
def injectedRecords : List Bytes :=
  [directoryRecord [0] 19 170, directoryRecord [1] 18 106, fileRecord [65] 22 1, fileRecord [66] 24 1,
    fileRecord [67] 23 1, fileRecord winntSifName 25 1]

/-- An append of one byte, when the records and the end of the image are known. -/
theorem Staged.append_known {image : Image} {root i386 : DirectoryRecord} {rootPlaced placed : List (Nat × Bytes)}
    {sorted : List Bytes} {fileName : Bytes} {byte : UInt8} {lba : Nat}
    (staged : Staged image root i386 rootPlaced placed) (next : nextLba image = lba)
    (ends : finalLen lba [byte] / sectorSize = lba + 1) (small : lba + 1 < 2 ^ 32)
    (absent : ∀ record ∈ parsed placed, isoSortKey record.name ≠ isoSortKey fileName) (short : fileName.length ≤ 221)
    (sorts : sortAfterDots (placed.map Prod.snd ++ [fileRecord fileName lba 1]) = sorted)
    (room : packedEnd 0 sorted ≤ alignUp i386.dataLen sectorSize) (size : packedEnd 0 sorted < 2 ^ 32) :
    ∃ image' rootPlaced', (appendFileToI386 fileName [byte]).run image = .ok () image' ∧
      Staged image' root { i386 with dataLen := packedEnd 0 sorted } rootPlaced'
        (placements i386.start (withSize (packedEnd 0 sorted) sorted)) ∧ nextLba image' = lba + 1 := by
  subst next
  have same : sortedRecords image placed fileName [byte] = sorted := sorts
  have fits : AppendFits image i386 placed fileName [byte] := by
    refine ⟨List.cons_ne_nil _ _, absent, by omega, by simp, short, ?_, ?_, ?_⟩
    · rw [newEnd, same]
      exact room
    · rw [newEnd, same]
      exact size
    · rw [ends]
      exact small
  obtain ⟨rootPlaced', wrote⟩ := staged.append fits
  refine ⟨_, rootPlaced', (appendFileToI386_run staged).mpr ⟨fits, rfl⟩, ?_, ?_⟩
  · have result := wrote.staged
    rwa [newEnd, same] at result
  · rw [wrote.atEnd.nextLba, ends]

/-- A mixed run on the sample volume with two files. -/
def bootCalls : List Call := [.append [66] [1], .inject [3], .replace [65] [2]]

theorem bootCalls_run : ∃ image', (runCalls bootCalls).run bootIso = .ok () image' := by
  obtain ⟨root, rootPlaced, staged⟩ := bootIso_staged
  obtain ⟨first, rootPlaced, appended, staged, next⟩ := @Staged.append_known _ _ _ _ _ appendedRecords [66] 1 24
    staged bootIso_nextLba (by decide) (by decide) (by decide) (by decide) (by decide) (by decide) (by decide)
  obtain ⟨second, rootPlaced, injected, staged, next⟩ := @Staged.append_known _ _ _ _ _ injectedRecords winntSifName 3
    25 staged next (by decide) (by decide) (by decide) (by decide) (by decide) (by decide) (by decide)
  have fits : ReplaceFits second [2] := by
    refine ⟨by decide, ?_, by decide, ?_⟩
    all_goals rw [next]; decide
  have injects : (Call.inject [3]).run.run first = .ok () second := injected
  obtain ⟨existing, found⟩ : ∃ existing, (parsed (placements (sampleI386 136).start
      (withSize (packedEnd 0 injectedRecords) injectedRecords))).find? (fun record => isoNameEq record.name [65])
        = some existing := Option.isSome_iff_exists.mp (by decide)
  have replaces : (Call.replace [65] [2]).run.run second = .ok () _ :=
    (replaceFileInI386_run staged).mpr ⟨fits, existing, found, rfl⟩
  exact ⟨_, (runCalls_cons _ _ _ _ _).mpr ⟨first, appended, (runCalls_cons _ _ _ _ _).mpr ⟨second, injects,
    (runCalls_cons _ _ _ _ _).mpr ⟨_, replaces, (Effect.pure_eq_ok _ _ _ _).mpr ⟨rfl, rfl⟩⟩⟩⟩⟩

/-- A mixed run on the sample volume leaves the file `C` as it is. -/
theorem runCalls_refines_bootIso : ∃ image', (runCalls bootCalls).run bootIso = .ok () image' ∧
    readFileFromI386 image' [65] = .ok (some [2]) ∧ readFileFromI386 image' [66] = .ok (some [1]) ∧
    readFileFromI386 image' winntSifName = .ok (some [3]) ∧
    readFileFromI386 image' [67] = readFileFromI386 bootIso [67] := by
  obtain ⟨image', run⟩ := bootCalls_run
  obtain ⟨represented, refines⟩ := runCalls_refines bootIso_wellFormed run
  obtain ⟨files, before⟩ := represented (by decide)
  obtain ⟨files', acted, after, last⟩ := refines files before
  have added : files' = ((files.insert (isoSortKey [66]) [1]).insert (isoSortKey winntSifName) [3]).insert
      (isoSortKey [65]) [2] := by
    simp only [bootCalls, actAll, Option.bind_eq_some_iff] at acted
    obtain ⟨_, first, _, second, _, third, same⟩ := acted
    rw [← Option.some.inj same, Call.act_eq_some third, Call.act_eq_some second, Call.act_eq_some first]
    rfl
  subst added
  refine ⟨image', run, last _ rfl, ?_, ?_, ?_⟩
  · exact after.reads [66] (by constructor <;> decide)
  · exact after.reads winntSifName (by constructor <;> decide)
  · rw [after.reads [67] (by constructor <;> decide), before.reads [67] (by constructor <;> decide)]
    rfl

/-- **The dot records are not files**: an append changes what reading `.` gives, since the size of
the directory changes. -/
theorem append_changes_dot : ¬ ∀ (image image' : Image) (fileName contents other : Bytes),
    WellFormed image → (appendFileToI386 fileName contents).run image = .ok () image' →
    isoSortKey other ≠ isoSortKey fileName →
    readFileFromI386 image' other = readFileFromI386 image other := by
  intro claimed
  have same := claimed bareIso _ [65] [1] [0] bareIso_wellFormed bareIso_append (by decide)
  obtain ⟨root, rootPlaced, staged⟩ := bareIso_staged
  obtain ⟨rootPlaced', wrote⟩ := staged.append bareIso_appendFits
  have size : bareIso.size = 20 * sectorSize := sampleIso_size bareIso_fits
  have dotBefore : fileExtent ((placements (19 * sectorSize) bareRecords).map Prod.snd)
      (isoSortKey [0]) = some (19, 68) := by decide
  have before : readFileFromI386 bareIso [0] = .ok (some (extentBytes bareIso (19, 68))) := by
    refine staged.readFile.mpr ⟨fun extent here => ?_, by rw [dotBefore]; rfl⟩
    rw [dotBefore] at here
    obtain rfl := Option.some.inj here
    rw [size]
    decide
  have sorted : sortedRecords bareIso (placements (19 * sectorSize) bareRecords) [65] [1]
      = bareRecords ++ [fileRecord [65] 20 1] := by
    rw [sortedRecords, newRecord, bareIso_nextLba]
    decide
  have dotAfter : fileExtent (withSize (packedEnd 0 (bareRecords ++ [fileRecord [65] 20 1]))
      (bareRecords ++ [fileRecord [65] 20 1])) (isoSortKey [0]) = some (19, 102) := by decide
  have after := (wrote.staged.readFile.mp (same.trans before)).2
  rw [layout_map_snd, newEnd, sorted, dotAfter] at after
  -- 68 bytes cannot be 102 bytes
  have lengths := congrArg (Option.map List.length) after
  simp [extentBytes] at lengths

end Bootsmith.Iso
