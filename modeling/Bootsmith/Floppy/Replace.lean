/-
**Replacing a file that fails.**

`replaceFile` removes the file and then adds the new contents, and nothing is put back when the second
step fails. An error of `addFile` leaves the image as it was (`addFile_clean`), so an error of
`replaceFile` leaves what `removeFile` leaves.

* `replaceFile_error`: after an error the old file is gone, and the others are there;
* `replace_lost`: contents that are empty or too long lose the file.
-/

import Bootsmith.Floppy.Run

namespace Bootsmith.Floppy

open Bootsmith.Library Effect

/-- The image has so many bytes. -/
def Sized (size : Nat) (image : Image) : Prop := image.size = size

/-! ### Writes inside the image -/

section Writes

variable {image : Image} {size : Nat}

theorem copyInto_sure (sized : Sized size image) (start : Nat) (bytes : Bytes) :
    SureAt (Sized size) (copyInto start bytes) image := by
  let inside := fun image : Image =>
    (if start + bytes.length ≤ image.size then .ok () else .error .panic : Fallible Unit)
  have quiet : ∀ chain, inside image ≠ .error (.error chain) := by
    intro chain
    unfold inside
    split <;> exact fun same => by cases same
  unfold copyInto
  refine (sureAt_query inside quiet sized).bind fun value middle run _ => ?_
  obtain ⟨answer, rfl⟩ := (query_eq_ok _ _ _ _).mp run
  unfold inside at answer
  split at answer
  · rename_i inside
    exact (Image.write_size_of_le _ _ _ inside).trans sized
  · cases answer

theorem byteAt_quiet (image : Image) (index : Nat) (chain : List String) :
    byteAt image index ≠ .error (.error chain) := by
  unfold byteAt
  split <;> exact fun same => by cases same

theorem writeFat12One_sure (sized : Sized size image) {fatOffset cluster : Nat}
    (inside : fatOffset + cluster * 3 / 2 + 1 < size) (value : Nat) :
    SureAt (Sized size) (writeFat12One fatOffset cluster value) image := by
  unfold writeFat12One fileLen
  refine (sureAt_query _ (fun _ same => by cases same) sized).bind fun length middle run _ => ?_
  obtain ⟨answer, rfl⟩ := (query_eq_ok _ _ _ _).mp run
  obtain rfl := Except.ok.inj answer
  have fits : ¬ image.size ≤ fatOffset + cluster * 3 / 2 + 1 := by
    rw [show image.size = size from sized]
    exact Nat.not_le_of_lt inside
  simp only [if_neg fits]
  split
  · refine (copyInto_sure sized _ _).bind fun _ middle _ sized => ?_
    refine (sureAt_query (fun image => byteAt image _) (byteAt_quiet middle _) sized).bind fun _ middle _ sized => ?_
    exact copyInto_sure sized _ _
  · refine (sureAt_query (fun image => byteAt image _) (byteAt_quiet image _) sized).bind fun _ middle _ sized => ?_
    exact (copyInto_sure sized _ _).bind fun _ middle _ sized => copyInto_sure sized _ _

theorem writeCopies_sure {layout : Fat12Layout} {cluster : Nat} (value : Nat) {copies : List Nat}
    (inside : ∀ copy ∈ copies, layout.fatOffset copy + cluster * 3 / 2 + 1 < size) (sized : Sized size image) :
    SureAt (Sized size) (writeCopies layout cluster value copies) image := by
  induction copies generalizing image with
  | nil => exact sureAt_pure () sized
  | cons copy rest ih =>
    refine (writeFat12One_sure sized (inside copy List.mem_cons_self) value).bind fun _ middle _ sized => ?_
    exact ih (fun other member => inside other (List.mem_cons_of_mem _ member)) sized

end Writes

section Add

variable {layout : Fat12Layout} {image middle : Image} {name : DosName} {contents : Bytes}

/-- With clusters of two bytes or more every entry of the tables lies inside the image. -/
theorem Fat12Layout.Geometry.entry_inside (geometry : layout.Geometry image.size)
    (wide : 2 ≤ layout.clusterSize) (rooted : 0 < layout.rootEntries) {copy cluster : Nat}
    (copied : copy < layout.fatCount) (small : cluster < layout.clusterCount + 2) :
    layout.fatOffset copy + cluster * 3 / 2 + 1 < image.size := by
  have fatEnd := geometry.fat_end copied
  have data := geometry.data
  have dataEnd := geometry.dataEnd
  have clusters := Nat.mul_le_mul_left layout.clusterCount wide
  unfold Fat12Layout.slotOffset at data
  omega

theorem linkClusters_sure (geometry : layout.Geometry image.size) (wide : 2 ≤ layout.clusterSize)
    (rooted : 0 < layout.rootEntries) {clusters : List Nat}
    (small : ∀ cluster ∈ clusters, cluster < layout.clusterCount + 2) (sized : Sized image.size middle) :
    SureAt (Sized image.size) (linkClusters layout clusters) middle := by
  induction clusters generalizing middle with
  | nil => exact sureAt_pure () sized
  | cons cluster rest ih =>
    have inside : ∀ copy ∈ List.range layout.fatCount,
        layout.fatOffset copy + cluster * 3 / 2 + 1 < image.size := fun copy member =>
      geometry.entry_inside wide rooted (List.mem_range.mp member) (small cluster List.mem_cons_self)
    refine (writeCopies_sure _ inside sized).bind fun _ middle _ sized => ?_
    exact ih (fun other member => small other (List.mem_cons_of_mem _ member)) sized

theorem allocateClusters_clean (geometry : layout.Geometry image.size) (wide : 2 ≤ layout.clusterSize)
    (rooted : 0 < layout.rootEntries) (needed : Nat) :
    CleanAt (allocateClusters layout needed) image ∧
      ∀ clusters middle, (allocateClusters layout needed).run image = .ok clusters middle →
        Sized image.size middle ∧ ∀ cluster ∈ clusters, layout.IsData cluster := by
  have data : ∀ clusters, collectClusters image layout needed [] (List.range' 2 layout.clusterCount) = .ok clusters →
      ∀ cluster ∈ clusters, layout.IsData cluster := by
    intro clusters collected cluster member
    have inRange := (mem_of_collectClusters collected member).resolve_left List.not_mem_nil
    rw [List.mem_range'_1] at inRange
    exact ⟨inRange.1, by omega⟩
  have link : ∀ clusters, (∀ cluster ∈ clusters, layout.IsData cluster) →
      SureAt (Sized image.size) (linkClusters layout clusters) image := fun clusters data =>
    linkClusters_sure geometry wide rooted (fun cluster member => (data cluster member).2) rfl
  unfold allocateClusters
  constructor
  · refine CleanAt.query_bind _ fun clusters collected => ?_
    split
    · exact cleanAt_bail _ _
    · exact ((link clusters (data clusters collected)).bind fun _ middle _ sized => sureAt_pure clusters sized).clean
  · intro clusters middle run
    obtain ⟨collected, _, asked, run⟩ := (bind_eq_ok _ _ _ _ _).mp run
    obtain ⟨answer, rfl⟩ := (query_eq_ok _ _ _ _).mp asked
    split at run
    · exact ((bail_ne_ok _ _ _ _).mp run).elim
    · obtain ⟨_, linked, links, done⟩ := (bind_eq_ok _ _ _ _ _).mp run
      obtain ⟨rfl, rfl⟩ := (pure_eq_ok _ _ _ _).mp done
      exact ⟨(link _ (data _ answer)).of_ok links, data _ answer⟩

theorem writeFileData_sure {clusters : List Nat} (data : ∀ cluster ∈ clusters, layout.IsData cluster)
    {size : Nat} (sized : Sized size middle) (written : Nat) :
    SureAt (Sized size) (writeFileData layout contents written clusters) middle := by
  induction clusters generalizing middle written with
  | nil => exact sureAt_pure () sized
  | cons cluster rest ih =>
    have offset := clusterOffset_eq (data cluster List.mem_cons_self)
    refine (sureAt_query _ (fun chain same => by rw [offset] at same; cases same) sized).bind
      fun _ middle _ sized => ?_
    refine (copyInto_sure sized _ _).bind fun _ middle _ sized => ?_
    refine (copyInto_sure sized _ _).bind fun _ middle _ sized => ?_
    exact ih (fun other member => data other (List.mem_cons_of_mem _ member)) sized _

theorem writeRootEntry_sure {size : Nat} (sized : Sized size middle) (slot first : Nat) {length : Nat}
    (short : length < 2 ^ 32) : SureAt (Sized size) (writeRootEntry layout slot name first length) middle := by
  have converted : Fallible.context "file is too large for FAT12 directory entry" (tryFrom (2 ^ 32) length)
      = .ok length := by
    rw [Fallible.context_eq_ok, tryFrom_eq_ok]
    exact ⟨short, rfl⟩
  unfold writeRootEntry
  refine (copyInto_sure sized _ _).bind fun _ middle _ sized => ?_
  refine (copyInto_sure sized _ _).bind fun _ middle _ sized => ?_
  refine (copyInto_sure sized _ _).bind fun _ middle _ sized => ?_
  refine (copyInto_sure sized _ _).bind fun _ middle _ sized => ?_
  refine (copyInto_sure sized _ _).bind fun _ middle _ sized => ?_
  refine (copyInto_sure sized _ _).bind fun _ middle _ sized => ?_
  refine (sureAt_query _ (fun chain same => by rw [converted] at same; cases same) sized).bind
    fun _ middle _ sized => ?_
  exact copyInto_sure sized _ _

/-- **An error of `addFile` leaves the image.** -/
theorem addFile_clean (short : contents.length < 2 ^ 32)
    (wide : ∀ layout, parseLayout image = .ok layout → 2 ≤ layout.clusterSize) :
    CleanAt (addFile name contents) image := by
  unfold addFile
  split
  · exact cleanAt_bail _ _
  refine CleanAt.query_bind _ fun layout parsed => ?_
  have geometry := parseLayout_geometry parsed
  refine CleanAt.query_bind _ fun existing _ => ?_
  split
  · exact cleanAt_bail _ _
  refine CleanAt.query_bind _ fun slot found => ?_
  have rooted : 0 < layout.rootEntries := by
    rw [findFreeRootSlot_eq geometry] at found
    exact Nat.zero_lt_of_lt (Volume.freeSlot_eq_some ((Fallible.okOr_eq_ok _ _ _).mp found)).1
  obtain ⟨clean, allocated⟩ := allocateClusters_clean geometry (wide layout parsed) rooted
    (max (layout.clustersFor contents.length) 1)
  refine CleanAt.bind (Sized image.size) (clean.context _) fun clusters middle run => ?_
  rw [context_eq_ok] at run
  obtain ⟨sized, data⟩ := allocated clusters middle run
  refine (writeFileData_sure data sized 0).bind fun _ middle _ sized => ?_
  have quiet : ∀ chain, firstOf clusters ≠ .error (.error chain) := by
    cases clusters <;> exact fun _ same => by cases same
  refine (sureAt_query (fun _ => firstOf clusters) quiet sized).bind fun first middle _ sized => ?_
  exact writeRootEntry_sure sized slot first short

end Add

/-! ### Replacing -/

section Replace

variable {layout : Fat12Layout} {image image' : Image} {name : DosName} {contents : Bytes} {chain : List String}

/-- An error of `replaceFile` leaves what `removeFile` leaves. -/
theorem replaceFile_after (short : contents.length < 2 ^ 32)
    (wide : ∀ layout, parseLayout ((removeFile name).after image) = .ok layout → 2 ≤ layout.clusterSize)
    (run : (replaceFile name contents).run image = .error (.error chain) image') :
    image' = (removeFile name).after image := by
  unfold replaceFile at run
  rw [EStateM.run_bind] at run
  unfold after at wide ⊢
  cases removed : (removeFile name).run image with
  | ok value middle =>
    rw [removed] at run wide
    exact addFile_clean short wide chain image' run
  | error failure middle =>
    rw [removed] at run
    cases run
    rfl

/-- Removing a file of a consistent image succeeds. -/
theorem removeFile_ok (consistent : Consistent layout image) (encoded : Encoded name) :
    ∃ value middle, (removeFile name).run image = .ok value middle := by
  obtain ⟨chains, sound⟩ := consistent.sound
  cases found : (volumeOf layout image).find layout name with
  | none => exact ⟨false, image, removeFile_absent consistent.parsed found⟩
  | some slot =>
    obtain ⟨inside, entry⟩ := Volume.isEntry_of_find (sound.plain encoded) found
    obtain ⟨after, run, _⟩ :=
      removeFile_present consistent.parsed consistent.fit found (sound.owned slot inside entry)
    exact ⟨true, after, run⟩

/-- **After an error the image is as the removal leaves it**: on a consistent image the file that was
there is gone, and every other one reads as before. -/
theorem replaceFile_error (short : contents.length < 2 ^ 32)
    (wide : ∀ layout, parseLayout ((removeFile name).after image) = .ok layout → 2 ≤ layout.clusterSize)
    (run : (replaceFile name contents).run image = .error (.error chain) image') :
    image' = (removeFile name).after image ∧
      ∀ layout, Consistent layout image → (volumeOf layout image).UniqueNames layout → BootReserved layout →
        Encoded name → readFile image' name = .ok none ∧
          ∀ other, Encoded other ∨ (volumeOf layout image).Plain layout other → other ≠ name →
            readFile image' other = readFile image other := by
  have left := replaceFile_after short wide run
  refine ⟨left, fun layout consistent unique boot encoded => ?_⟩
  obtain ⟨value, middle, removed⟩ := removeFile_ok consistent encoded
  have step := removeFile_step consistent boot encoded removed
  have same : image' = middle := left.trans (after_of_ok removed)
  obtain ⟨files, reads⟩ := consistent.reads
  obtain ⟨chains, sound⟩ := consistent.sound
  have after := step.reads unique files reads
  rw [same]
  constructor
  · rw [after name ((step.plain name).mpr (sound.plain encoded)), Function.update_self]
  · intro other known different
    have plain : (volumeOf layout image).Plain layout other := known.elim sound.plain id
    rw [after other ((step.plain other).mpr plain), Function.update_of_ne different, reads other plain]

end Replace

/-- The sample image with a file. -/
def fileImage : Image := (addFile sampleName [7, 8]).after sampleImage

theorem fileImage_run : (addFile sampleName [7, 8]).run sampleImage = .ok () fileImage := by
  have passed : (addFile sampleName [7, 8]).passes (fun _ _ => true) sampleImage = true := by decide +kernel
  obtain ⟨_, image', run, _⟩ := exists_of_passes passed
  rw [run, fileImage, after_of_ok run]

theorem fileImage_consistent : Consistent sampleLayout fileImage ∧
    (volumeOf sampleLayout fileImage).UniqueNames sampleLayout := by
  have step := addFile_step sample_consistent (by decide) sampleName_encoded fileImage_run
  exact ⟨step.consistent, step.unique (unique_of_empty sample_empty)⟩

theorem replaceFile_error_sample : ∃ chain image',
    (replaceFile sampleName []).run fileImage = .error (.error chain) image' ∧
      image' = (removeFile sampleName).after fileImage ∧ readFile image' sampleName = .ok none := by
  have failed : (replaceFile sampleName []).fails (fun _ => true) fileImage = true := by decide +kernel
  obtain ⟨chain, image', run, _⟩ := exists_of_fails failed
  have wide : (parseLayout ((removeFile sampleName).after fileImage)).toOption.all
      (fun layout => 2 ≤ layout.clusterSize) = true := by
    decide +kernel
  obtain ⟨left, consistent⟩ := replaceFile_error (by decide) (fun layout parsed => by
    rw [parsed] at wide
    exact of_decide_eq_true wide) run
  obtain ⟨gone, _⟩ := consistent sampleLayout fileImage_consistent.1 fileImage_consistent.2 (by decide)
    sampleName_encoded
  exact ⟨chain, image', run, left, gone⟩

/-- **A file is lost** when the new contents are empty, or more than the data area holds. -/
theorem replace_lost : Consistent sampleLayout fileImage ∧ Encoded sampleName ∧
    readFile fileImage sampleName = .ok (some [7, 8]) ∧
    ∀ contents ∈ [[], List.replicate 5000 (1 : UInt8)], ∃ chain image',
      (replaceFile sampleName contents).run fileImage = .error (.error chain) image' ∧
        image' ≠ fileImage ∧ readFile image' sampleName = .ok none := by
  have before : readFile fileImage sampleName = .ok (some [7, 8]) := by decide +kernel
  refine ⟨fileImage_consistent.1, sampleName_encoded, before, fun contents member => ?_⟩
  have failed : (replaceFile sampleName contents).fails (fun image' =>
      decide (readFile image' sampleName = .ok none)) fileImage = true := by
    simp only [List.mem_cons, List.not_mem_nil, or_false] at member
    rcases member with rfl | rfl
    · decide +kernel
    · decide +kernel
  obtain ⟨chain, image', run, checked⟩ := exists_of_fails failed
  have gone := of_decide_eq_true checked
  refine ⟨chain, image', run, fun same => ?_, gone⟩
  rw [same, before] at gone
  cases gone

end Bootsmith.Floppy
