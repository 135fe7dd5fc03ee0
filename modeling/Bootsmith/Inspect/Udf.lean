/-
**The UDF walker of the classifier** (`bootsmith-iso/src/udf.rs`).

From the anchor the walker finds the partition and the root directory, and then reads file entries:
the bytes of a directory, in the entry itself or in the extents it names, and in them its file
identifiers. Every index and slice is one that could panic.

* `directoryBytes_cases`: exactly one of them does, in a file entry whose data lies in the entry and
  whose extended attributes end past the sector (`Overlong`);
* `walkDir_eq`: the walker is a walk through the entries of directories (`udfEntries`);
* `collectPaths_soft`: what it returns is the listing of that walk (`SoftListing`).
-/

import Bootsmith.Inspect.Reader
import Bootsmith.Iso.Record

namespace Bootsmith.Inspect.Udf

open Bootsmith.Library
open Bootsmith.Inspect (toUppercase)

def sectorSize : Nat := 2048

def anchorSector : Nat := 256

def maxDirDepth : Nat := 8

def tagAnchorVdp : Nat := 2

def tagPartitionDesc : Nat := 5

def tagLogicalVolumeDesc : Nat := 6

def tagTerminatingDesc : Nat := 8

def tagFileSetDesc : Nat := 256

def tagFileIdentifier : Nat := 257

def tagFileEntry : Nat := 261

def tagExtendedFileEntry : Nat := 266

/-- Where a file entry or a file set lies in the partition. -/
structure LongAd where
  block : Nat
  deriving DecidableEq, Repr

/-! ### Sectors and tags -/

/-- A sector; a read that fails is `none`. -/
def readSector (image : Image) (sector : Nat) : Option Bytes :=
  if sector * sectorSize + sectorSize ≤ image.size then some (image.slice (sector * sectorSize) sectorSize)
  else none

def LongAd.parse (bytes : Bytes) : Fallible (Option LongAd) :=
  if bytes.length < 16 then pure none
  else do
    let block ← leOf bytes 4 8
    pure (some ⟨block⟩)

/-- The identifier of a tag. -/
def parseTag (buf : Bytes) : Fallible (Option Nat) :=
  if buf.length < 16 then pure none
  else do
    let identifier ← leOf buf 0 2
    pure (some identifier)

/-- Both are known. -/
def bothKnown (partitionStart : Option Nat) (fsdLoc : Option LongAd) : Option (Nat × LongAd) :=
  match partitionStart, fsdLoc with
  | some start, some loc => some (start, loc)
  | _, _ => none

/-- The loop of `scan_mvds`, where `remaining` sectors are left from the sector `loc + i` on. -/
def scanMvdsFrom (image : Image) (loc : Nat) :
    Nat → Nat → Option Nat → Option LongAd → Fallible (Option (Nat × LongAd))
  | 0, _, partitionStart, fsdLoc => pure (bothKnown partitionStart fsdLoc)
  | remaining + 1, i, partitionStart, fsdLoc =>
    match readSector image (loc + i) with
    | none => pure none
    | some buf => do
      let tag ← parseTag buf
      match tag with
      | none => pure none
      | some identifier =>
        if identifier = tagPartitionDesc then do
          let start ← leOf buf 188 192
          if fsdLoc.isSome then pure (bothKnown (some start) fsdLoc)
          else scanMvdsFrom image loc remaining (i + 1) (some start) fsdLoc
        else if identifier = tagLogicalVolumeDesc then do
          let part ← partOf buf 248 264
          let found ← LongAd.parse part
          match found with
          | none => pure none
          | some _ =>
            if partitionStart.isSome then pure (bothKnown partitionStart found)
            else scanMvdsFrom image loc remaining (i + 1) partitionStart found
        else if identifier = tagTerminatingDesc then pure (bothKnown partitionStart fsdLoc)
        else if partitionStart.isSome ∧ fsdLoc.isSome then pure (bothKnown partitionStart fsdLoc)
        else scanMvdsFrom image loc remaining (i + 1) partitionStart fsdLoc

def scanMvds (image : Image) (loc len : Nat) : Fallible (Option (Nat × LongAd)) :=
  scanMvdsFrom image loc ((len + sectorSize - 1) / sectorSize) 0 none none

/-- The start of the partition and the root directory: `collect_paths` up to its walk. -/
def findRoot (image : Image) : Fallible (Option (Nat × LongAd)) :=
  match readSector image anchorSector with
  | none => pure none
  | some anchor => do
    let tag ← parseTag anchor
    if tag ≠ some tagAnchorVdp then pure none
    else do
      let mvdsLen ← leOf anchor 16 20
      let mvdsLoc ← leOf anchor 20 24
      let found ← scanMvds image mvdsLoc mvdsLen
      match found with
      | none => pure none
      | some (partStart, fsdLoc) =>
        match readSector image (partStart + fsdLoc.block) with
        | none => pure none
        | some fsd => do
          let fsdTag ← parseTag fsd
          if fsdTag ≠ some tagFileSetDesc then pure none
          else do
            let part ← partOf fsd 400 416
            let rootIcb ← LongAd.parse part
            pure (rootIcb.map fun icb => (partStart, icb))

/-! ### The bytes of a directory -/

/-- The recorded sectors of an extent; sectors that cannot be read are left out. -/
def extentBytes (image : Image) (first nsec : Nat) : Bytes :=
  (List.range nsec).flatMap fun i => (readSector image (first + i)).getD []

/-- The loop over short allocation descriptors, from `o` on. -/
def shortAds (image : Image) (partStart : Nat) (fe : Bytes) (stop o : Nat) (dirBytes : Bytes) :
    Fallible Bytes :=
  if o + 8 ≤ stop ∧ o + 8 ≤ fe.length then do
    let rawLen ← leOf fe o (o + 4)
    let block ← leOf fe (o + 4) (o + 8)
    let extType := rawLen / 2 ^ 30
    let extLen := rawLen % 2 ^ 30
    if extType = 3 then pure dirBytes
    else
      let dirBytes :=
        if 0 < extLen ∧ extType = 0 then
          dirBytes ++ extentBytes image (partStart + block) ((extLen + sectorSize - 1) / sectorSize)
        else dirBytes
      shortAds image partStart fe stop (o + 8) dirBytes
  else pure dirBytes
termination_by fe.length - o

/-- Where the extended attributes of a file entry start. -/
def bodyOffsetOf (identifier : Nat) : Option Nat :=
  if identifier = tagFileEntry then some 176
  else if identifier = tagExtendedFileEntry then some 216
  else none

/-- The bytes of the directory of a file entry: the first part of `walk_dir`, `none` where it returns. -/
def directoryBytes (image : Image) (partStart : Nat) (icb : LongAd) : Fallible (Option Bytes) :=
  match readSector image (partStart + icb.block) with
  | none => pure none
  | some fe => do
    let tag ← parseTag fe
    match tag.bind bodyOffsetOf with
    | none => pure none
    | some bodyOffset => do
      let icbFlags ← leOf fe 34 36
      let lEa ← leOf fe (bodyOffset - 8) (bodyOffset - 4)
      let lAd ← leOf fe (bodyOffset - 4) bodyOffset
      let adType := icbFlags % 8
      let adStart := bodyOffset + lEa
      if adType = 3 then do
        -- the data lies in the entry itself
        let data ← partOf fe adStart (min (adStart + lAd) fe.length)
        pure (some data)
      else if adType = 0 then do
        let data ← shortAds image partStart fe (adStart + lAd) adStart []
        pure (some data)
      else pure none

/-! ### File identifiers -/

/-- The characters of 16-bit big-endian codes; surrogates are left out. -/
def ucs2Chars : Bytes → Text
  | high :: low :: rest =>
    let code := high.toNat * 256 + low.toNat
    if code < 0xD800 ∨ 0xDFFF < code then Char.ofNat code :: ucs2Chars rest else ucs2Chars rest
  | _ => []

def decodeDString (raw : Bytes) : Fallible (Option Text) :=
  if raw = [] then pure none
  else do
    let encoding ← byteOf raw 0
    let body ← partOf raw 1 raw.length
    if encoding = 8 then pure (some (body.map fun byte => Char.ofNat byte.toNat))
    else if encoding = 16 then
      if body.length % 2 ≠ 0 then pure none else pure (some (ucs2Chars body))
    else pure none

/-- The name of a file identifier, unless it is the parent's or deleted. -/
def fidNameOf (dirBytes : Bytes) (o lIu : Nat) (characteristics lFi : UInt8) : Fallible (Option Text) :=
  let isParent := characteristics &&& (0x08 : UInt8) ≠ 0
  let isDeleted := characteristics &&& (0x04 : UInt8) ≠ 0
  if ¬ isParent ∧ ¬ isDeleted ∧ 0 < lFi then do
    let nameBytes ← partOf dirBytes (o + 38 + lIu) (o + 38 + lIu + lFi.toNat)
    decodeDString nameBytes
  else pure none

section Functions

variable (beyond : Char → Text)

/-- Visit a file identifier that has a name. -/
def visitFid (visit : LongAd → Text → Finset Text → Fallible (Finset Text)) (pre : Text)
    (out : Finset Text) (icb : LongAd) (isDir : Bool) : Option Text → Fallible (Finset Text)
  | none => pure out
  | some name =>
    let path := joinPath pre (toUppercase beyond name)
    let out := insert path out
    if isDir then visit icb path out else pure out

/-- The loop over the file identifiers of a directory, from `o` on: the second part of `walk_dir`. -/
def walkFids (visit : LongAd → Text → Finset Text → Fallible (Finset Text)) (pre : Text)
    (dirBytes : Bytes) (o : Nat) (out : Finset Text) : Fallible (Finset Text) :=
  if o + 38 ≤ dirBytes.length then do
    let rest ← partOf dirBytes o dirBytes.length
    let tag ← parseTag rest
    if tag ≠ some tagFileIdentifier then pure out
    else do
      let characteristics ← byteOf dirBytes (o + 18)
      let lFi ← byteOf dirBytes (o + 19)
      let lIu ← leOf dirBytes (o + 36) (o + 38)
      let fidLen := 38 + lIu + lFi.toNat
      let padded := (fidLen + 3) / 4 * 4
      if dirBytes.length < o + fidLen then pure out
      else do
        let isDir := characteristics &&& (0x02 : UInt8) ≠ 0
        let part ← partOf dirBytes (o + 20) (o + 36)
        let found ← LongAd.parse part
        match found with
        | none => pure out
        | some icb => do
          let name ← fidNameOf dirBytes o lIu characteristics lFi
          let out ← visitFid beyond visit pre out icb isDir name
          walkFids visit pre dirBytes (o + padded) out
  else pure out
termination_by dirBytes.length - o

/-- The walk, where `levels` more levels are read. -/
def walkLevels (image : Image) (partStart : Nat) :
    Nat → LongAd → Text → Finset Text → Fallible (Finset Text)
  | 0, _, _, out => pure out
  | levels + 1, icb, pre, out => do
    let found ← directoryBytes image partStart icb
    match found with
    | none => pure out
    | some dirBytes => walkFids beyond (walkLevels image partStart levels) pre dirBytes 0 out

def walkDir (image : Image) (partStart : Nat) (icb : LongAd) (pre : Text) (depth : Nat)
    (out : Finset Text) : Fallible (Finset Text) :=
  walkLevels beyond image partStart (maxDirDepth + 1 - depth) icb pre out

def collectPaths (image : Image) : Fallible (Option (Finset Text)) := do
  let found ← findRoot image
  match found with
  | none => pure none
  | some (partStart, rootIcb) => do
    let out ← walkDir beyond image partStart rootIcb [] 0 ∅
    pure (some out)

end Functions

/-! ### What does not panic -/

section Reads

theorem readSector_length {image : Image} {sector : Nat} {buf : Bytes}
    (read : readSector image sector = some buf) : buf.length = sectorSize := by
  unfold readSector at read
  split at read
  · rw [← Option.some.inj read, Image.slice_length]
  · cases read

theorem parseTag_of_le {buf : Bytes} (long : 16 ≤ buf.length) :
    parseTag buf = .ok (some (leNat (subrange buf 0 2))) := by
  rw [parseTag, if_neg (by omega), leOf_of_le (by decide) (by omega)]
  rfl

theorem LongAd.parse_of_le {bytes : Bytes} (long : 16 ≤ bytes.length) :
    LongAd.parse bytes = .ok (some ⟨leNat (subrange bytes 4 8)⟩) := by
  rw [LongAd.parse, if_neg (by omega), leOf_of_le (by decide) (by omega)]
  rfl

theorem scanMvdsFrom_isOk (image : Image) (loc remaining i : Nat) (partitionStart : Option Nat)
    (fsdLoc : Option LongAd) :
    (scanMvdsFrom image loc remaining i partitionStart fsdLoc).IsOk := by
  induction remaining generalizing i partitionStart fsdLoc with
  | zero => exact Fallible.isOk_pure _
  | succ remaining ih =>
    rw [scanMvdsFrom]
    split
    · exact Fallible.isOk_pure _
    rename_i buf read
    have length : buf.length = 2048 := readSector_length read
    refine Fallible.isOk_bind (parseTag_of_le (by omega)) ?_
    dsimp only
    split
    · refine Fallible.isOk_bind (leOf_of_le (by decide) (by omega)) ?_
      split
      · exact Fallible.isOk_pure _
      · exact ih _ _ _
    split
    · have part : 16 ≤ (subrange buf 248 264).length := by
        rw [Iso.subrange_length (by omega)]
      refine Fallible.isOk_bind (partOf_of_le (by decide) (by omega)) ?_
      refine Fallible.isOk_bind (LongAd.parse_of_le part) ?_
      dsimp only
      split
      · exact Fallible.isOk_pure _
      · exact ih _ _ _
    split
    · exact Fallible.isOk_pure _
    split
    · exact Fallible.isOk_pure _
    · exact ih _ _ _

/-- **Looking for the root directory** never panics. -/
theorem findRoot_isOk (image : Image) : (findRoot image).IsOk := by
  unfold findRoot
  split
  · exact Fallible.isOk_pure _
  rename_i anchor readAnchor
  have length : anchor.length = 2048 := readSector_length readAnchor
  refine Fallible.isOk_bind (parseTag_of_le (by omega)) ?_
  split
  · exact Fallible.isOk_pure _
  refine Fallible.isOk_bind (leOf_of_le (by decide) (by omega)) ?_
  refine Fallible.isOk_bind (leOf_of_le (by decide) (by omega)) ?_
  obtain ⟨scanned, same⟩ := scanMvdsFrom_isOk image _ _ 0 none none
  refine Fallible.isOk_bind same ?_
  split
  · exact Fallible.isOk_pure _
  split
  · exact Fallible.isOk_pure _
  rename_i fsd readFsd
  have length : fsd.length = 2048 := readSector_length readFsd
  have part : 16 ≤ (subrange fsd 400 416).length := by
    rw [Iso.subrange_length (by omega)]
  refine Fallible.isOk_bind (parseTag_of_le (by omega)) ?_
  split
  · exact Fallible.isOk_pure _
  refine Fallible.isOk_bind (partOf_of_le (by decide) (by omega)) ?_
  refine Fallible.isOk_bind (LongAd.parse_of_le part) ?_
  exact Fallible.isOk_pure _

theorem shortAds_isOk (image : Image) (partStart : Nat) (fe : Bytes) (stop o : Nat) (dirBytes : Bytes) :
    (shortAds image partStart fe stop o dirBytes).IsOk := by
  induction remaining : fe.length - o using Nat.strong_induction_on generalizing o dirBytes with
  | _ remaining ih =>
    subst remaining
    rw [shortAds]
    split
    · rename_i inside
      refine Fallible.isOk_bind (leOf_of_le (by omega) (by omega)) ?_
      refine Fallible.isOk_bind (leOf_of_le (by omega) (by omega)) ?_
      dsimp only
      split
      · exact Fallible.isOk_pure _
      · exact ih _ (by omega) _ _ rfl
    · exact Fallible.isOk_pure _

/-- The data of a file entry lies in the entry, and its extended attributes end past the sector. -/
def Overlong (image : Image) (partStart : Nat) (icb : LongAd) : Prop :=
  ∃ fe bodyOffset, readSector image (partStart + icb.block) = some fe ∧
    bodyOffsetOf (leNat (subrange fe 0 2)) = some bodyOffset ∧ leNat (subrange fe 34 36) % 8 = 3 ∧
    sectorSize < bodyOffset + leNat (subrange fe (bodyOffset - 8) (bodyOffset - 4))

theorem bodyOffsetOf_eq_some {identifier bodyOffset : Nat}
    (found : bodyOffsetOf identifier = some bodyOffset) :
    bodyOffset = 176 ∨ bodyOffset = 216 := by
  unfold bodyOffsetOf at found
  split at found
  · exact Or.inl (Option.some.inj found).symm
  split at found
  · exact Or.inr (Option.some.inj found).symm
  · cases found

/-- What is read of a file entry with a known tag. -/
theorem directoryBytes_of_entry {image : Image} {partStart : Nat} {icb : LongAd} {fe : Bytes}
    {bodyOffset : Nat}
    (read : readSector image (partStart + icb.block) = some fe)
    (found : bodyOffsetOf (leNat (subrange fe 0 2)) = some bodyOffset) :
    directoryBytes image partStart icb =
      if leNat (subrange fe 34 36) % 8 = 3 then
        some <$> partOf fe (bodyOffset + leNat (subrange fe (bodyOffset - 8) (bodyOffset - 4)))
          (min (bodyOffset + leNat (subrange fe (bodyOffset - 8) (bodyOffset - 4))
            + leNat (subrange fe (bodyOffset - 4) bodyOffset)) fe.length)
      else if leNat (subrange fe 34 36) % 8 = 0 then
        some <$> shortAds image partStart fe
          (bodyOffset + leNat (subrange fe (bodyOffset - 8) (bodyOffset - 4))
            + leNat (subrange fe (bodyOffset - 4) bodyOffset))
          (bodyOffset + leNat (subrange fe (bodyOffset - 8) (bodyOffset - 4))) []
      else pure none := by
  have length : fe.length = 2048 := readSector_length read
  have small := bodyOffsetOf_eq_some found
  have tag : parseTag fe = .ok _ := parseTag_of_le (by omega)
  have flags : leOf fe 34 36 = .ok _ := leOf_of_le (by decide) (by omega)
  have attributes : leOf fe (bodyOffset - 8) (bodyOffset - 4) = .ok _ := leOf_of_le (by omega) (by omega)
  have descriptors : leOf fe (bodyOffset - 4) bodyOffset = .ok _ := leOf_of_le (by omega) (by omega)
  simp only [directoryBytes, read, tag, bind, Except.bind, Option.bind_some, found, flags, attributes,
    descriptors]
  rfl

/-- **Reading a directory panics exactly** when its file entry is overlong. -/
theorem directoryBytes_cases (image : Image) (partStart : Nat) (icb : LongAd) :
    (Overlong image partStart icb ∧ directoryBytes image partStart icb = .error .panic) ∨
      (¬ Overlong image partStart icb ∧ (directoryBytes image partStart icb).IsOk) := by
  cases read : readSector image (partStart + icb.block) with
  | none =>
    refine Or.inr ⟨?_, none, ?_⟩
    · rintro ⟨fe, bodyOffset, read', _⟩
      cases read.symm.trans read'
    · rw [directoryBytes, read]
      rfl
  | some fe =>
    have length : fe.length = 2048 := readSector_length read
    cases found : bodyOffsetOf (leNat (subrange fe 0 2)) with
    | none =>
      refine Or.inr ⟨?_, none, ?_⟩
      · rintro ⟨fe', bodyOffset, read', found', _⟩
        obtain rfl := Option.some.inj (read.symm.trans read')
        cases found.symm.trans found'
      · simp only [directoryBytes, read, parseTag_of_le (show 16 ≤ fe.length by omega), bind, Except.bind,
          Option.bind_some, found]
        rfl
    | some bodyOffset =>
      have overlong_iff : Overlong image partStart icb ↔ leNat (subrange fe 34 36) % 8 = 3 ∧
          sectorSize < bodyOffset + leNat (subrange fe (bodyOffset - 8) (bodyOffset - 4)) := by
        simp only [Overlong, read, Option.some.injEq, exists_and_left, exists_eq_left', found]
      rw [overlong_iff, directoryBytes_of_entry read found]
      generalize bodyOffset + leNat (subrange fe (bodyOffset - 8) (bodyOffset - 4)) = adStart
      by_cases embedded : leNat (subrange fe 34 36) % 8 = 3
      · rw [if_pos embedded]
        unfold sectorSize
        by_cases past : 2048 < adStart
        · have panics : partOf fe adStart (min (adStart + leNat (subrange fe (bodyOffset - 4) bodyOffset))
              fe.length) = .error .panic := if_neg (by omega)
          refine Or.inl ⟨⟨embedded, past⟩, ?_⟩
          rw [panics]
          rfl
        · refine Or.inr ⟨fun both => past both.2, ?_⟩
          rw [partOf_of_le (by omega) (by omega)]
          exact Fallible.isOk_pure _
      · rw [if_neg embedded]
        refine Or.inr ⟨fun both => embedded both.1, ?_⟩
        split
        · obtain ⟨data, same⟩ := shortAds_isOk image partStart fe
            (adStart + leNat (subrange fe (bodyOffset - 4) bodyOffset)) adStart []
          rw [same]
          exact Fallible.isOk_pure _
        · exact Fallible.isOk_pure _

end Reads

/-! ### The entries of a directory -/

/-- The name of an identifier, if it can be decoded. -/
def decodedName : Bytes → Option Text
  | [] => none
  | encoding :: body =>
    if encoding = 8 then some (body.map fun byte => Char.ofNat byte.toNat)
    else if encoding = 16 then if body.length % 2 ≠ 0 then none else some (ucs2Chars body)
    else none

theorem decodeDString_eq (raw : Bytes) : decodeDString raw = .ok (decodedName raw) := by
  cases raw with
  | nil => rfl
  | cons encoding body =>
    have length : (encoding :: body).length = body.length + 1 := List.length_cons
    have rest : subrange (encoding :: body) 1 (encoding :: body).length = body := by
      rw [subrange, length, Nat.add_sub_cancel, List.drop_one, List.tail_cons, List.take_length]
    have whole : partOf (encoding :: body) 1 (encoding :: body).length = .ok body := by
      rw [partOf_of_le (by omega) le_rfl, rest]
    have tag : byteOf (encoding :: body) 0 = .ok encoding := byteOf_of_lt (by omega)
    rw [decodeDString, if_neg (List.cons_ne_nil _ _), tag, whole]
    show (if encoding = 8 then _ else _) = _
    simp only [decodedName]
    split_ifs <;> rfl

/-- The length of the file identifier at an offset. -/
def fidLenAt (dirBytes : Bytes) (o : Nat) : Nat :=
  38 + leNat (subrange dirBytes (o + 36) (o + 38)) + (dirBytes.getD (o + 19) 0).toNat

/-- The bytes at an offset are those of a file identifier that fits. -/
def FidAt (dirBytes : Bytes) (o : Nat) : Prop :=
  leNat (subrange dirBytes o (o + 2)) = tagFileIdentifier ∧ o + fidLenAt dirBytes o ≤ dirBytes.length

instance (dirBytes : Bytes) (o : Nat) : Decidable (FidAt dirBytes o) := inferInstanceAs (Decidable (_ ∧ _))

/-- The name at the end of the file identifier, unless it is deleted or that of the parent. -/
def fidName (dirBytes : Bytes) (o : Nat) : Option Text :=
  if ¬ dirBytes.getD (o + 18) 0 &&& (0x08 : UInt8) ≠ 0 ∧ ¬ dirBytes.getD (o + 18) 0 &&& (0x04 : UInt8) ≠ 0 ∧
      0 < dirBytes.getD (o + 19) 0 then
    decodedName (subrange dirBytes (o + 38 + leNat (subrange dirBytes (o + 36) (o + 38)))
      (o + 38 + leNat (subrange dirBytes (o + 36) (o + 38)) + (dirBytes.getD (o + 19) 0).toNat))
  else none

/-- Where the directory of the file identifier lies, if it is one. -/
def fidDirectory (dirBytes : Bytes) (o : Nat) : Option LongAd :=
  if dirBytes.getD (o + 18) 0 &&& (0x02 : UInt8) ≠ 0 then some ⟨leNat (subrange dirBytes (o + 24) (o + 28))⟩
  else none

section Entries

variable (beyond : Char → Text)

/-- The entries of a directory from `o` on. -/
def fidEntries (dirBytes : Bytes) (o : Nat) : List (Text × Option LongAd) :=
  if o + 38 ≤ dirBytes.length ∧ FidAt dirBytes o then
    ((fidName dirBytes o).map fun name => (toUppercase beyond name, fidDirectory dirBytes o)).toList
      ++ fidEntries dirBytes (o + (fidLenAt dirBytes o + 3) / 4 * 4)
  else []
termination_by dirBytes.length - o
decreasing_by
  unfold fidLenAt
  omega

/-- The entries of a directory; one that cannot be read has none. -/
def udfEntries (image : Image) (partStart : Nat) (icb : LongAd) :
    Fallible (List (Text × Option LongAd)) := do
  let found ← directoryBytes image partStart icb
  pure ((found.map fun dirBytes => fidEntries beyond dirBytes 0).getD [])

variable {beyond}

theorem visitFid_eq (visit : LongAd → Text → Finset Text → Fallible (Finset Text)) (pre : Text)
    (out : Finset Text) (icb : LongAd) (isDir : Bool) (name : Option Text) :
    visitFid beyond visit pre out icb isDir name = visitEntries visit pre
      (name.map fun name => (toUppercase beyond name, if isDir then some icb else none)).toList out := by
  cases name with
  | none => rfl
  | some name =>
    cases isDir with
    | false => rfl
    | true => exact (bind_pure _).symm

/-- One round of the loop over file identifiers. -/
theorem walkFids_round (visit : LongAd → Text → Finset Text → Fallible (Finset Text)) (pre : Text)
    {dirBytes : Bytes} {o : Nat} (out : Finset Text) (inside : o + 38 ≤ dirBytes.length) :
    walkFids beyond visit pre dirBytes o out =
      if FidAt dirBytes o then
        visitEntries visit pre ((fidName dirBytes o).map fun name =>
            (toUppercase beyond name, fidDirectory dirBytes o)).toList out >>=
          walkFids beyond visit pre dirBytes (o + (fidLenAt dirBytes o + 3) / 4 * 4)
      else pure out := by
  have rest : partOf dirBytes o dirBytes.length = .ok _ := partOf_of_le (by omega) le_rfl
  have tag : parseTag (subrange dirBytes o dirBytes.length)
      = .ok (some (leNat (subrange dirBytes o (o + 2)))) := by
    have length : (subrange dirBytes o dirBytes.length).length = dirBytes.length - o :=
      Iso.subrange_length le_rfl
    rw [parseTag_of_le (by omega), Iso.subrange_subrange (by omega), Nat.add_zero]
  have characteristics : byteOf dirBytes (o + 18) = .ok _ := byteOf_of_lt (by omega)
  have lFi : byteOf dirBytes (o + 19) = .ok _ := byteOf_of_lt (by omega)
  have lIu : leOf dirBytes (o + 36) (o + 38) = .ok _ := leOf_of_le (by omega) inside
  have part : partOf dirBytes (o + 20) (o + 36) = .ok _ := partOf_of_le (by omega) (by omega)
  have icb : LongAd.parse (subrange dirBytes (o + 20) (o + 36))
      = .ok (some ⟨leNat (subrange dirBytes (o + 24) (o + 28))⟩) := by
    have length : (subrange dirBytes (o + 20) (o + 36)).length = 16 := by
      rw [Iso.subrange_length (by omega)]
      omega
    rw [LongAd.parse_of_le length.ge, Iso.subrange_subrange (by omega)]
  rw [walkFids, if_pos inside, Fallible.bind_of_ok rest, Fallible.bind_of_ok tag]
  by_cases tagged : leNat (subrange dirBytes o (o + 2)) = tagFileIdentifier
  · rw [if_neg (by simpa using tagged), Fallible.bind_of_ok characteristics, Fallible.bind_of_ok lFi,
      Fallible.bind_of_ok lIu]
    show (if dirBytes.length < o + fidLenAt dirBytes o then _ else _) = _
    by_cases fits : o + fidLenAt dirBytes o ≤ dirBytes.length
    · have name : fidNameOf dirBytes o (leNat (subrange dirBytes (o + 36) (o + 38))) (dirBytes.getD (o + 18) 0)
          (dirBytes.getD (o + 19) 0) = .ok (fidName dirBytes o) := by
        unfold fidName fidNameOf
        unfold fidLenAt at fits
        dsimp only
        split
        · rw [Fallible.bind_of_ok (partOf_of_le (by omega) (by omega)), decodeDString_eq]
        · rfl
      have both : FidAt dirBytes o := ⟨tagged, fits⟩
      rw [if_neg (by omega), if_pos both, Fallible.bind_of_ok part, Fallible.bind_of_ok icb]
      refine (Fallible.bind_of_ok name).trans ?_
      rw [visitFid_eq]
      have directory : (if decide (dirBytes.getD (o + 18) 0 &&& (0x02 : UInt8) ≠ 0) then
          some ⟨leNat (subrange dirBytes (o + 24) (o + 28))⟩ else none) = fidDirectory dirBytes o := by
        simp only [decide_eq_true_eq, fidDirectory]
      rw [directory]
      rfl
    · rw [if_pos (by omega), if_neg fun fid => fits fid.2]
  · rw [if_pos (by simpa using tagged), if_neg fun fid => tagged fid.1]

/-- **The loop over the file identifiers of a directory visits its entries.** -/
theorem walkFids_eq (visit : LongAd → Text → Finset Text → Fallible (Finset Text)) (pre : Text)
    (dirBytes : Bytes) (o : Nat) (out : Finset Text) :
    walkFids beyond visit pre dirBytes o out = visitEntries visit pre (fidEntries beyond dirBytes o) out := by
  induction remaining : dirBytes.length - o using Nat.strong_induction_on generalizing o out with
  | _ remaining ih =>
    subst remaining
    rw [fidEntries]
    by_cases inside : o + 38 ≤ dirBytes.length
    · rw [walkFids_round visit pre out inside]
      by_cases fid : FidAt dirBytes o
      · have further : o < o + (fidLenAt dirBytes o + 3) / 4 * 4 := by
          unfold fidLenAt
          omega
        rw [if_pos fid, if_pos ⟨inside, fid⟩, visitEntries_append]
        exact bind_congr fun out => ih _ (by omega) _ _ rfl
      · rw [if_neg fid, if_neg fun both => fid both.2]
        rfl
    · rw [walkFids, if_neg inside, if_neg fun both => inside both.1]
      rfl

theorem walkLevels_eq (image : Image) (partStart levels : Nat) (icb : LongAd) (pre : Text)
    (out : Finset Text) :
    walkLevels beyond image partStart levels icb pre out
      = walk (udfEntries beyond image partStart) levels icb pre out := by
  induction levels generalizing icb pre out with
  | zero => rfl
  | succ levels ih =>
    have visit : walkLevels beyond image partStart levels = walk (udfEntries beyond image partStart) levels := by
      funext icb pre out
      exact ih icb pre out
    rw [walkLevels, walk, udfEntries, bind_assoc, visit]
    refine bind_congr fun found => ?_
    cases found with
    | none => rfl
    | some dirBytes => exact walkFids_eq _ _ _ _ _

/-- **The walker is a walk through the directories of the partition.** -/
theorem walkDir_eq (image : Image) (partStart : Nat) (icb : LongAd) (pre : Text) (depth : Nat)
    (out : Finset Text) : walkDir beyond image partStart icb pre depth out
      = walk (udfEntries beyond image partStart) (maxDirDepth + 1 - depth) icb pre out :=
  walkLevels_eq image partStart _ icb pre out

/-- Reading the entries of a directory panics exactly when its file entry is overlong. -/
theorem udfEntries_cases (image : Image) (partStart : Nat) (icb : LongAd) :
    (Overlong image partStart icb ∧ udfEntries beyond image partStart icb = .error .panic) ∨
      (¬ Overlong image partStart icb ∧ ∃ entries, udfEntries beyond image partStart icb = .ok entries) := by
  refine (directoryBytes_cases image partStart icb).imp ?_ ?_
  · rintro ⟨overlong, panics⟩
    refine ⟨overlong, ?_⟩
    rw [udfEntries, panics]
    rfl
  · rintro ⟨short, found, read⟩
    exact ⟨short, _, Fallible.bind_of_ok read⟩

variable (beyond) in
/-- No file entry that the walk from the root reaches is overlong. -/
def Sound (image : Image) : Prop :=
  ∀ partStart root, findRoot image = .ok (some (partStart, root)) → ∀ icb,
    Reaches (udfEntries beyond image partStart) (maxDirDepth + 1) root icb → ¬ Overlong image partStart icb

variable (beyond) in
/-- **The UDF walker** returns, with or without a listing, when all it reaches is sound; else it panics. -/
theorem collectPaths_cases (image : Image) :
    (Sound beyond image ∧ ∃ listing, collectPaths beyond image = .ok listing) ∨
      (¬ Sound beyond image ∧ collectPaths beyond image = .error .panic) := by
  obtain ⟨found, searched⟩ := findRoot_isOk image
  rw [collectPaths, Fallible.bind_of_ok searched, Sound, searched]
  cases found with
  | none => exact Or.inl ⟨by simp, none, rfl⟩
  | some place =>
    obtain ⟨partStart, root⟩ := place
    have sound_iff : (∀ partStart' root',
          (.ok (some (partStart, root)) : Fallible (Option (Nat × LongAd))) = .ok (some (partStart', root')) →
          ∀ icb, Reaches (udfEntries beyond image partStart') (maxDirDepth + 1) root' icb →
            ¬ Overlong image partStart' icb) ↔
        ∀ icb, Reaches (udfEntries beyond image partStart) (maxDirDepth + 1) root icb →
          ¬ Overlong image partStart icb := by
      refine ⟨fun sound => sound partStart root rfl, fun sound partStart' root' same => ?_⟩
      cases same
      exact sound
    rw [sound_iff]
    by_cases sound : ∀ icb, Reaches (udfEntries beyond image partStart) (maxDirDepth + 1) root icb →
        ¬ Overlong image partStart icb
    · obtain ⟨paths, walked⟩ : ∃ paths, walk (udfEntries beyond image partStart) (maxDirDepth + 1) root [] ∅
          = .ok paths := walk_isOk_iff.mpr fun icb reached =>
        ((udfEntries_cases image partStart icb).resolve_left fun bad => sound icb reached bad.1).2
      refine Or.inl ⟨sound, some paths, ?_⟩
      exact Fallible.bind_of_ok ((walkDir_eq image partStart root [] 0 ∅).trans walked)
    · refine Or.inr ⟨sound, ?_⟩
      cases walked : walk (udfEntries beyond image partStart) (maxDirDepth + 1) root [] ∅ with
      | ok paths =>
        refine absurd (fun icb reached overlong => ?_) sound
        obtain ⟨entries, read⟩ := walk_isOk_iff.mp ⟨paths, walked⟩ icb reached
        rcases udfEntries_cases image partStart icb with ⟨_, panics⟩ | ⟨short, _⟩
        · cases panics.symm.trans read
        · exact short overlong
      | error failure =>
        obtain ⟨icb, _, failed⟩ := walk_error walked
        have panics : failure = .panic := by
          rcases udfEntries_cases image partStart icb with ⟨_, panics⟩ | ⟨_, entries, read⟩
          · exact Except.error.inj (failed.symm.trans panics)
          · cases failed.symm.trans read
        show (walkDir beyond image partStart root [] 0 ∅ >>= _) = _
        rw [walkDir_eq]
        show (walk _ (maxDirDepth + 1) root [] ∅ >>= _) = _
        rw [walked, panics]
        rfl

variable (beyond) in
/-- What the walker may return: no listing where it finds no root, and else the paths of the directories
below the root that it can read. -/
structure SoftListing (image : Image) (listing : Option (Finset Text)) : Prop where
  missing : findRoot image = .ok none → listing = none
  walked : ∀ partStart root, findRoot image = .ok (some (partStart, root)) → ∃ paths, listing = some paths ∧
    ∀ path, path ∈ paths ↔ Yields (udfEntries beyond image partStart) (maxDirDepth + 1) root [] path

/-- A listing is that of the directories the walker reads. -/
theorem collectPaths_soft {image : Image} {listing : Option (Finset Text)}
    (read : collectPaths beyond image = .ok listing) : SoftListing beyond image listing := by
  refine ⟨fun absent => ?_, fun partStart root found => ?_⟩
  · rw [collectPaths, Fallible.bind_of_ok absent] at read
    exact (Except.ok.inj read).symm
  · rw [collectPaths, Fallible.bind_of_ok found] at read
    obtain ⟨paths, walked, same⟩ := (Fallible.bind_eq_ok _ _ _).mp read
    refine ⟨paths, (Except.ok.inj same).symm, fun path => ?_⟩
    rw [mem_walk ((walkDir_eq image partStart root [] 0 ∅).symm.trans walked)]
    simp

end Entries

end Bootsmith.Inspect.Udf
