/-
**Reading a file whose chain is broken** (`ntxp_floppy.rs`).

`readFile` takes as many clusters as the recorded size needs. It reports a link below 2 and a walk of more
steps than there are clusters, but a free entry and a link outside the data area end the loop, and what was
read so far is returned as the file.

* `readChain_full`, `readChain_early`, `readChain_ok`: what the loop returns, and when;
* `readFile_whole_iff`: the bytes of a file are complete, and a broken chain is an error, exactly when the
  chain neither ends early nor comes back to a cluster within the size.
-/

import Bootsmith.Floppy.Separated
import Bootsmith.Library.Checked

namespace Bootsmith.Floppy

open Bootsmith.Library

/-! ### The chain of a file -/

/-- The link of a cluster. An entry that lies outside the image leads to the cluster 1, which no file has. -/
def linkOf (image : Image) (layout : Fat12Layout) (cluster : Nat) : Nat :=
  (readFat12 image layout cluster).toOption.getD 1

/-- The pointer ends a chain without an error: a free entry, or a cluster behind the data area. -/
def Ended (layout : Fat12Layout) (pointer : Nat) :
    Prop := pointer = 0 ∨ layout.clusterCount + 2 ≤ pointer

/-- The first `count` clusters of the chain are distinct data clusters. -/
def WholeChain (image : Image) (layout : Fat12Layout) (first count : Nat) : Prop :=
  (∀ cluster ∈ List.iterate (linkOf image layout) first count, layout.IsData cluster) ∧
    (List.iterate (linkOf image layout) first count).Nodup

/-- The chain ends with less than `count` clusters. The first cluster of a file is not looked at as a
link, so a file without one is an error. -/
def EndsEarly (image : Image) (layout : Fat12Layout) (first count : Nat) : Prop :=
  first ≠ 0 ∧ ∃ chain, chain.length < count ∧ (∀ cluster ∈ chain, layout.IsData cluster) ∧
    Follows (linkOf image layout) (Ended layout) first chain

/-- The chain comes back to a cluster within the first `count`, in no more steps than are counted. -/
def ComesBack (image : Image) (layout : Fat12Layout) (first count : Nat) : Prop :=
  count ≤ layout.clusterCount + 1 ∧
    (∀ cluster ∈ List.iterate (linkOf image layout) first count, layout.IsData cluster) ∧
      ¬ (List.iterate (linkOf image layout) first count).Nodup

/-- The last cluster. -/
theorem clustersFor_last {layout : Fat12Layout} {length : Nat} (some : 0 < length)
    (short : length ≤ layout.clusterSize) : layout.clustersFor length = 1 := by
  unfold Fat12Layout.clustersFor
  rw [Nat.div_eq_of_lt_le] <;> omega

/-- One cluster, and those of the rest. -/
theorem clustersFor_more {layout : Fat12Layout} (positive : 0 < layout.clusterSize) {length : Nat}
    (long : layout.clusterSize < length) :
    layout.clustersFor length = layout.clustersFor (length - layout.clusterSize) + 1 := by
  unfold Fat12Layout.clustersFor
  have split : length + layout.clusterSize - 1
      = length - layout.clusterSize + layout.clusterSize - 1 + layout.clusterSize := by omega
  rw [split, Nat.add_div_right _ positive]

section Loop

variable {layout : Fat12Layout} {image : Image} {fileSize budget cluster : Nat} {out : Bytes}

/-- The entry behind a link is read. -/
theorem readFat12_of_link {next : Nat} (link : linkOf image layout cluster = next) (known : next ≠ 1) :
    readFat12 image layout cluster = .ok next := by
  unfold linkOf at link
  cases answer : readFat12 image layout cluster with
  | ok value =>
    rw [answer] at link
    exact congrArg Except.ok link
  | error failure =>
    rw [answer] at link
    exact absurd link.symm known

theorem linkOf_of_ok {next : Nat} (answer : readFat12 image layout cluster = .ok next) :
    linkOf image layout cluster = next := by
  rw [linkOf, answer]
  rfl

/-- The bytes that are read when `out` has been read already. -/
def readOn (image : Image) (layout : Fat12Layout) (fileSize cluster : Nat) (out : Bytes) : Bytes :=
  out ++ image.slice (layout.clusterStart cluster) (min (fileSize - out.length) layout.clusterSize)

theorem readOn_length (image : Image) (layout : Fat12Layout) (fileSize cluster : Nat) (out : Bytes) :
    (readOn image layout fileSize cluster out).length
      = out.length + min (fileSize - out.length) layout.clusterSize := by
  rw [readOn, List.length_append, Image.slice_length]

/-- One turn of the loop on a data cluster. -/
theorem readChain_turn (geometry : layout.Geometry image.size) (here : layout.IsData cluster) :
    readChain image layout fileSize budget cluster out
      = if (readOn image layout fileSize cluster out).length = fileSize then
          .ok (readOn image layout fileSize cluster out)
        else
          readFat12 image layout cluster >>= fun next =>
            if next = 0 ∨ fat12Eoc - 8 ≤ next then .ok (readOn image layout fileSize cluster out)
            else
              match budget with
              | 0 => Fallible.bail "FAT12 cluster chain loop detected reading file"
              | budget + 1 =>
                readChain image layout fileSize budget next (readOn image layout fileSize cluster out) := by
  have bounds := geometry.cluster_end here
  conv_lhs => unfold readChain
  rw [if_pos here.2, clusterOffset_eq here]
  show (rangeAt image (layout.clusterStart cluster) _ >>= _) = _
  rw [rangeAt_of_le (by omega)]
  rfl

/-- A link that is read as the end is one that ends the chain. -/
theorem ended_of_mark {size next : Nat} (geometry : layout.Geometry size)
    (mark : next = 0 ∨ fat12Eoc - 8 ≤ next) : Ended layout next := by
  have small := geometry.small
  unfold fat12Eoc at mark
  unfold Ended
  omega

/-- **A chain of data clusters** gives as many bytes as the size says. -/
theorem readChain_full (geometry : layout.Geometry image.size) (unread : out.length < fileSize)
    (data : ∀ other ∈ List.iterate (linkOf image layout) cluster (layout.clustersFor (fileSize - out.length)),
      layout.IsData other)
    (steps : layout.clustersFor (fileSize - out.length) ≤ budget + 1) :
    ∃ bytes, readChain image layout fileSize budget cluster out = .ok bytes ∧ bytes.length = fileSize := by
  induction budget using Nat.strong_induction_on generalizing cluster out with
  | _ budget ih =>
    have positive := geometry.cluster
    have length := readOn_length image layout fileSize cluster out
    rcases Nat.lt_or_ge layout.clusterSize (fileSize - out.length) with more | last
    · rw [Nat.min_eq_right more.le] at length
      have rest : fileSize - out.length - layout.clusterSize
          = fileSize - (readOn image layout fileSize cluster out).length := by omega
      rw [clustersFor_more positive more, rest] at data steps
      have here := data cluster List.mem_cons_self
      have after : ∀ other ∈ List.iterate (linkOf image layout) (linkOf image layout cluster)
          (layout.clustersFor (fileSize - (readOn image layout fileSize cluster out).length)),
          layout.IsData other := fun other member => data other (List.mem_cons_of_mem _ member)
      have some : 0 < layout.clustersFor (fileSize - (readOn image layout fileSize cluster out).length) := by
        rw [Nat.pos_iff_ne_zero, Ne, clustersFor_eq_zero positive]
        omega
      obtain ⟨count, counted⟩ := Nat.exists_eq_succ_of_ne_zero some.ne'
      have next : layout.IsData (linkOf image layout cluster) := by
        rw [counted] at after
        exact after _ List.mem_cons_self
      obtain ⟨budget, rfl⟩ : ∃ less, budget = less + 1 := Nat.exists_eq_succ_of_ne_zero (by omega)
      have known : linkOf image layout cluster ≠ 1 := by
        have low := next.1
        omega
      rw [readChain_turn geometry here, if_neg (by omega), Fallible.bind_of_ok (readFat12_of_link rfl known),
        if_neg (geometry.not_mark next)]
      exact ih budget (Nat.lt_succ_self _) (by omega) after (by omega)
    · rw [Nat.min_eq_left last] at length
      rw [clustersFor_last (by omega) last] at data
      have here := data cluster List.mem_cons_self
      rw [readChain_turn geometry here, if_pos (by omega)]
      exact ⟨_, rfl, by omega⟩

/-- **A chain that ends early** gives fewer bytes than the size says. -/
theorem readChain_early (geometry : layout.Geometry image.size) (unread : out.length < fileSize)
    {chain : List Nat} (data : ∀ other ∈ chain, layout.IsData other)
    (follows : Follows (linkOf image layout) (Ended layout) cluster chain) (start : cluster ≠ 0)
    (short : chain.length < layout.clustersFor (fileSize - out.length)) (steps : chain.length ≤ budget) :
    ∃ bytes, readChain image layout fileSize budget cluster out = .ok bytes ∧ bytes.length < fileSize := by
  induction chain generalizing budget cluster out with
  | nil =>
    have outside : ¬ cluster < layout.clusterCount + 2 := Nat.not_lt_of_le (follows.resolve_left start)
    unfold readChain
    rw [if_neg outside]
    exact ⟨out, rfl, unread⟩
  | cons node rest ih =>
    obtain ⟨rfl, follows⟩ := follows
    have positive := geometry.cluster
    have here := data cluster List.mem_cons_self
    have more : layout.clusterSize < fileSize - out.length := by
      by_contra last
      rw [clustersFor_last (by omega) (Nat.le_of_not_lt last), List.length_cons] at short
      omega
    have length := readOn_length image layout fileSize cluster out
    rw [Nat.min_eq_right more.le] at length
    have remaining : fileSize - out.length - layout.clusterSize
        = fileSize - (readOn image layout fileSize cluster out).length := by omega
    rw [clustersFor_more positive more, remaining, List.length_cons] at short
    rw [List.length_cons] at steps
    obtain ⟨budget, rfl⟩ : ∃ less, budget = less + 1 := Nat.exists_eq_succ_of_ne_zero (by omega)
    have known : linkOf image layout cluster ≠ 1 := by
      intro one
      rw [one] at follows
      cases rest with
      | nil =>
        rcases follows with zero | outside
        · omega
        · have start := here.1
          have := here.2
          omega
      | cons next rest =>
        have low := (data next (List.mem_cons_of_mem _ List.mem_cons_self)).1
        have same := follows.1
        omega
    rw [readChain_turn geometry here, if_neg (by omega), Fallible.bind_of_ok (readFat12_of_link rfl known)]
    split
    · exact ⟨_, rfl, by omega⟩
    · rename_i onward
      exact ih (by omega) (fun other member => data other (List.mem_cons_of_mem _ member)) follows
        (fun zero => onward (Or.inl zero)) (by omega) (by omega)

/-- **What the loop returns**: the whole size of a chain of data clusters, or less from a chain that ends. -/
theorem readChain_ok (geometry : layout.Geometry image.size) (unread : out.length < fileSize)
    {bytes : Bytes}
    (read : readChain image layout fileSize budget cluster out = .ok bytes) :
    (bytes.length = fileSize ∧ layout.clustersFor (fileSize - out.length) ≤ budget + 1 ∧
        ∀ other ∈ List.iterate (linkOf image layout) cluster (layout.clustersFor (fileSize - out.length)),
          layout.IsData other) ∨
      cluster ≠ 0 ∧ ∃ chain, chain.length < layout.clustersFor (fileSize - out.length) ∧
        (∀ other ∈ chain, layout.IsData other) ∧
          Follows (linkOf image layout) (Ended layout) cluster chain := by
  induction budget using Nat.strong_induction_on generalizing cluster out with
  | _ budget ih =>
    have positive := geometry.cluster
    have some : 0 < layout.clustersFor (fileSize - out.length) := by
      rw [Nat.pos_iff_ne_zero, Ne, clustersFor_eq_zero positive]
      omega
    by_cases outside : layout.clusterCount + 2 ≤ cluster
    · exact Or.inr ⟨by omega, [], some, fun _ member => absurd member List.not_mem_nil, Or.inr outside⟩
    by_cases low : cluster < 2
    · unfold readChain at read
      rw [if_pos (by omega), clusterOffset, if_pos (Or.inl low)] at read
      cases read
    have here : layout.IsData cluster := ⟨by omega, by omega⟩
    have length := readOn_length image layout fileSize cluster out
    rw [readChain_turn geometry here] at read
    rcases Nat.lt_or_ge layout.clusterSize (fileSize - out.length) with more | last
    · rw [Nat.min_eq_right more.le] at length
      rw [if_neg (by omega)] at read
      have remaining : fileSize - out.length - layout.clusterSize
          = fileSize - (readOn image layout fileSize cluster out).length := by omega
      rw [clustersFor_more positive more, remaining]
      obtain ⟨next, link, read⟩ := (Fallible.bind_eq_ok _ _ _).mp read
      have linked := linkOf_of_ok link
      split at read
      · rename_i mark
        refine Or.inr ⟨by omega, [cluster], ?_, ?_, rfl, linked ▸ ended_of_mark geometry mark⟩
        · rw [List.length_singleton, Nat.lt_add_one_iff, Nat.one_le_iff_ne_zero, Ne,
            clustersFor_eq_zero positive]
          omega
        · intro other member
          rwa [List.mem_singleton.mp member]
      · cases budget with
        | zero => exact ((Fallible.bail_ne_ok _ _).mp read).elim
        | succ budget =>
          rcases ih budget (Nat.lt_succ_self _) (by omega) read with
            ⟨whole, steps, data⟩ | ⟨_, chain, short, data, follows⟩
          · refine Or.inl ⟨whole, by omega, fun other member => ?_⟩
            rcases List.mem_cons.mp member with rfl | inRest
            · exact here
            · exact data other (linked ▸ inRest)
          · refine Or.inr ⟨by omega, cluster :: chain, by rw [List.length_cons]; omega, fun other member => ?_,
              rfl, linked ▸ follows⟩
            rcases List.mem_cons.mp member with rfl | inRest
            · exact here
            · exact data other inRest
    · rw [Nat.min_eq_left last] at length
      rw [if_pos (by omega)] at read
      obtain rfl := Except.ok.inj read
      rw [clustersFor_last (by omega) last]
      refine Or.inl ⟨by omega, by omega, fun other member => ?_⟩
      rwa [List.mem_singleton.mp member]

end Loop

/-! ### The file -/

section File

variable {layout : Fat12Layout} {image : Image} {name : DosName} {slot : Nat}

/-- What is read as a file has the recorded size, and a broken chain is reported. -/
def ReadsWhole (image : Image) (layout : Fat12Layout) (name : DosName) : Prop :=
  ∀ slot, findRootEntry image layout name = .ok (some slot) →
    (∀ bytes, readFile image name = .ok (some bytes) →
      bytes.length = slotSize ((volumeOf layout image).slots slot)) ∧
    (¬ WholeChain image layout (slotCluster ((volumeOf layout image).slots slot))
        (layout.clustersFor (slotSize ((volumeOf layout image).slots slot))) →
      ∃ chain, readFile image name = .error (.error chain))

/-- A chain of data clusters does not end. -/
theorem not_endsEarly {first count : Nat}
    (data : ∀ cluster ∈ List.iterate (linkOf image layout) first count, layout.IsData cluster) :
    ¬ EndsEarly image layout first count := by
  rintro ⟨_, chain, short, _, follows⟩
  obtain ⟨last, member, ends⟩ := follows.end_mem_iterate short
  obtain ⟨low, high⟩ := data last member
  rcases ends with zero | outside <;> omega

/-- Data clusters are not the end of a chain, so a chain that ends has no cluster twice. -/
theorem chain_short {first : Nat} {chain : List Nat} (data : ∀ cluster ∈ chain, layout.IsData cluster)
    (follows : Follows (linkOf image layout) (Ended layout) first chain) :
    chain.length ≤ layout.clusterCount := by
  refine chain_length_le data (follows.nodup fun cluster member ends => ?_)
  obtain ⟨low, high⟩ := data cluster member
  rcases ends with zero | outside <;> omega

/-- A file that ends early is returned with fewer bytes. -/
theorem readFile_early (parsed : parseLayout image = .ok layout)
    (found : findRootEntry image layout name = .ok (some slot))
    (early : EndsEarly image layout (slotCluster ((volumeOf layout image).slots slot))
      (layout.clustersFor (slotSize ((volumeOf layout image).slots slot)))) :
    ∃ bytes, readFile image name = .ok (some bytes) ∧
      bytes.length < slotSize ((volumeOf layout image).slots slot) := by
  have geometry := parseLayout_geometry parsed
  rw [readFile_found parsed found]
  generalize slotSize ((volumeOf layout image).slots slot) = fileSize at *
  generalize slotCluster ((volumeOf layout image).slots slot) = first at *
  obtain ⟨start, chain, short, data, follows⟩ := early
  have some : fileSize ≠ 0 := by
    intro none
    rw [(clustersFor_eq_zero geometry.cluster).mpr none] at short
    exact Nat.not_lt_zero _ short
  have unread : ([] : Bytes).length < fileSize := Nat.pos_of_ne_zero some
  obtain ⟨bytes, read, length⟩ :=
    readChain_early geometry unread data follows start short (chain_short data follows)
  refine ⟨bytes, ?_, length⟩
  rw [if_neg some, Fallible.bind_of_ok read]

/-- A file whose chain comes back within the size is returned with some bytes twice. -/
theorem readFile_back (parsed : parseLayout image = .ok layout)
    (found : findRootEntry image layout name = .ok (some slot))
    (back : ComesBack image layout (slotCluster ((volumeOf layout image).slots slot))
      (layout.clustersFor (slotSize ((volumeOf layout image).slots slot)))) :
    ∃ bytes, readFile image name = .ok (some bytes) := by
  have geometry := parseLayout_geometry parsed
  rw [readFile_found parsed found]
  generalize slotSize ((volumeOf layout image).slots slot) = fileSize at *
  generalize slotCluster ((volumeOf layout image).slots slot) = first at *
  obtain ⟨steps, data, repeated⟩ := back
  have some : fileSize ≠ 0 := by
    intro none
    rw [(clustersFor_eq_zero geometry.cluster).mpr none] at repeated
    exact repeated List.nodup_nil
  have unread : ([] : Bytes).length < fileSize := Nat.pos_of_ne_zero some
  obtain ⟨bytes, read, _⟩ := readChain_full geometry unread data steps
  refine ⟨bytes, ?_⟩
  rw [if_neg some, Fallible.bind_of_ok read]

/-- What is read of a file whose chain does not end early: all of it, from data clusters. -/
theorem readFile_ok (parsed : parseLayout image = .ok layout)
    (found : findRootEntry image layout name = .ok (some slot))
    (onward : ¬ EndsEarly image layout (slotCluster ((volumeOf layout image).slots slot))
      (layout.clustersFor (slotSize ((volumeOf layout image).slots slot))))
    {bytes : Bytes} (read : readFile image name = .ok (some bytes)) :
    bytes.length = slotSize ((volumeOf layout image).slots slot) ∧
      layout.clustersFor (slotSize ((volumeOf layout image).slots slot)) ≤ layout.clusterCount + 1 ∧
        ∀ cluster ∈ List.iterate (linkOf image layout) (slotCluster ((volumeOf layout image).slots slot))
          (layout.clustersFor (slotSize ((volumeOf layout image).slots slot))), layout.IsData cluster := by
  have geometry := parseLayout_geometry parsed
  rw [readFile_found parsed found] at read
  generalize slotSize ((volumeOf layout image).slots slot) = fileSize at *
  generalize slotCluster ((volumeOf layout image).slots slot) = first at *
  split at read
  · rename_i none
    obtain rfl := Option.some.inj (Except.ok.inj read)
    rw [none, (clustersFor_eq_zero geometry.cluster).mpr rfl]
    exact ⟨rfl, Nat.zero_le _, fun _ member => absurd member List.not_mem_nil⟩
  · rename_i some
    obtain ⟨out, loop, same⟩ := (Fallible.bind_eq_ok _ _ _).mp read
    obtain rfl := Option.some.inj (Except.ok.inj same)
    have unread : ([] : Bytes).length < fileSize := Nat.pos_of_ne_zero some
    exact (readChain_ok geometry unread loop).resolve_right onward

/-- **Reading a file does not panic, and reports a broken chain** exactly when the chain neither ends early
nor comes back to a cluster within the recorded size. -/
theorem readFile_whole_iff (parsed : parseLayout image = .ok layout) (name : DosName) :
    Fallible.NoPanic (readFile image name) ∧
      (ReadsWhole image layout name ↔ ∀ slot, findRootEntry image layout name = .ok (some slot) →
        ¬ EndsEarly image layout (slotCluster ((volumeOf layout image).slots slot))
            (layout.clustersFor (slotSize ((volumeOf layout image).slots slot))) ∧
          ¬ ComesBack image layout (slotCluster ((volumeOf layout image).slots slot))
            (layout.clustersFor (slotSize ((volumeOf layout image).slots slot)))) := by
  have calm := readFile_calm parsed name
  refine ⟨calm, forall₂_congr fun slot found => ?_⟩
  constructor
  · rintro ⟨whole, reported⟩
    constructor
    · intro early
      obtain ⟨bytes, read, short⟩ := readFile_early parsed found early
      exact absurd (whole bytes read) short.ne
    · intro back
      obtain ⟨bytes, read⟩ := readFile_back parsed found back
      obtain ⟨chain, failed⟩ := reported fun chain => back.2.2 chain.2
      rw [read] at failed
      cases failed
  · rintro ⟨onward, straight⟩
    refine ⟨fun bytes read => (readFile_ok parsed found onward read).1, fun broken => calm.exists_error ?_⟩
    intro value read
    cases value with
    | none =>
      rw [readFile_found parsed found] at read
      split at read
      · cases read
      · obtain ⟨out, _, same⟩ := (Fallible.bind_eq_ok _ _ _).mp read
        cases same
    | some bytes =>
      obtain ⟨_, steps, data⟩ := readFile_ok parsed found onward read
      exact straight ⟨steps, data, fun distinct => broken ⟨data, distinct⟩⟩

end File

/-! ### Two broken files -/

/-- The sample image with a file of two bytes whose recorded size is `size`, and whose cluster has the link
`link`. -/
def brokenImage (size link : Nat) : Image :=
  (fileImage.write (sampleLayout.slotOffset 0 + 28) (leBytes 4 size)).setTwelve (sampleLayout.fatOffset 0) 2 link

set_option maxRecDepth 20000 in
theorem readFile_whole_sample : Fallible.NoPanic (readFile fileImage sampleName) ∧
    ReadsWhole fileImage sampleLayout sampleName := by
  obtain ⟨calm, whole⟩ := readFile_whole_iff fileImage_consistent.1.parsed sampleName
  refine ⟨calm, whole.mpr fun slot found => ?_⟩
  have first : findRootEntry fileImage sampleLayout sampleName = .ok (some 0) := by decide
  obtain rfl := Option.some.inj (Except.ok.inj (first.symm.trans found))
  have cluster : slotCluster ((volumeOf sampleLayout fileImage).slots 0) = 2 := by decide
  have count : sampleLayout.clustersFor (slotSize ((volumeOf sampleLayout fileImage).slots 0)) = 1 := by
    decide
  have data : ∀ cluster ∈ List.iterate (linkOf fileImage sampleLayout) 2 1, sampleLayout.IsData cluster := by
    decide
  rw [cluster, count]
  exact ⟨not_endsEarly data, fun back => back.2.2 (List.nodup_singleton 2)⟩

set_option maxRecDepth 20000 in
/-- The chain ends, leaves the data area or comes back after one of two clusters. -/
theorem brokenImage_cut : ∀ link ∈ [0, 0xfff, 100, 2],
    parseLayout (brokenImage 600 link) = .ok sampleLayout ∧
      ¬ ReadsWhole (brokenImage 600 link) sampleLayout sampleName := by
  have entry : ∀ link ∈ [0, 0xfff, 100, 2], parseLayout (brokenImage 600 link) = .ok sampleLayout ∧
      findRootEntry (brokenImage 600 link) sampleLayout sampleName = .ok (some 0) ∧
      slotSize ((volumeOf sampleLayout (brokenImage 600 link)).slots 0) = 600 ∧
      slotCluster ((volumeOf sampleLayout (brokenImage 600 link)).slots 0) = 2 := by
    decide
  have lengths : ∀ link ∈ [0, 0xfff, 100, 2], ((readFile (brokenImage 600 link) sampleName).toOption.bind
      id).map List.length = some (if link = 2 then 600 else 512) := by
    decide
  have back : ¬ (List.iterate (linkOf (brokenImage 600 2) sampleLayout) 2 2).Nodup := by decide
  intro link member
  obtain ⟨parsed, found, size, first⟩ := entry link member
  have length := lengths link member
  refine ⟨parsed, fun whole => ?_⟩
  obtain ⟨sized, reported⟩ := whole 0 found
  rw [size] at sized reported
  rw [first] at reported
  cases result : readFile (brokenImage 600 link) sampleName with
  | error failure =>
    rw [result] at length
    cases length
  | ok value =>
    rw [result] at length
    cases value with
    | none => cases length
    | some bytes =>
      have read : bytes.length = if link = 2 then 600 else 512 := Option.some.inj length
      rw [sized bytes result] at read
      split at read
      · rename_i same
        subst same
        obtain ⟨chain, failed⟩ := reported fun chain => back chain.2
        rw [result] at failed
        cases failed
      · cases read

/-- **A file is cut short**: the chain ends, or leaves the data area, after 512 of 600 bytes. A chain that
comes back to its cluster is read as a file of two clusters. -/
theorem readFile_cut : List.Forall (fun link => parseLayout (brokenImage 600 link) = .ok sampleLayout ∧
    ¬ ReadsWhole (brokenImage 600 link) sampleLayout sampleName) [0, 0xfff, 100, 2] :=
  List.forall_iff_forall_mem.mpr brokenImage_cut

end Bootsmith.Floppy
