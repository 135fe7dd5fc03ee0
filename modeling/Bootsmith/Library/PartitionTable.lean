/-
**Partition tables of the first sector.**

What a BIOS reads in the first sector of a disk: from byte 446 on four entries of sixteen bytes, and behind
them a signature. An entry whose kind is zero is free.

* `decode_encode`: an entry reads back, whatever comes behind it;
* `partitions_of_table`: a sector that is made of entries is read as the partitions they encode.
-/

import Bootsmith.Library.Endian

namespace Bootsmith.Library

/-! ### Addresses of the old form -/

/-- A cylinder, a head, and a sector of the track, which counts from one. -/
structure Chs where
  cylinder : Fin 1024
  head : Fin 256
  sector : Fin 64
  deriving DecidableEq, Repr

namespace Chs

/-- The address of three numbers, each taken as far as its field goes. -/
def of (cylinder head sector : Nat) : Chs := ⟨Fin.ofNat _ cylinder, Fin.ofNat _ head, Fin.ofNat _ sector⟩

/-- The three bytes: the upper bits of the cylinder stand above the sector. -/
def encode (chs : Chs) : Bytes :=
  [UInt8.ofNat chs.head, UInt8.ofNat (chs.sector + 64 * (chs.cylinder / 256)), UInt8.ofNat (chs.cylinder % 256)]

def decode (head sector cylinder : UInt8) : Chs where
  cylinder := ⟨sector.toNat / 64 * 256 + cylinder.toNat, by
    have := sector.toNat_lt
    have := cylinder.toNat_lt
    omega⟩
  head := ⟨head.toNat, head.toNat_lt⟩
  sector := ⟨sector.toNat % 64, Nat.mod_lt _ (by norm_num)⟩

/-- The number of the sector on a disk of 255 heads and 63 sectors to a track. -/
def lba (chs : Chs) : Nat := (chs.cylinder * 255 + chs.head) * 63 + (chs.sector - 1)

theorem toNat_ofNat_of_lt {value : Nat} (small : value < 256) : (UInt8.ofNat value).toNat = value := by
  rw [UInt8.toNat_ofNat', Nat.mod_eq_of_lt small]

theorem decode_encode (chs : Chs) :
    decode (UInt8.ofNat chs.head) (UInt8.ofNat (chs.sector + 64 * (chs.cylinder / 256)))
      (UInt8.ofNat (chs.cylinder % 256)) = chs := by
  obtain ⟨⟨cylinder, cylinderSmall⟩, ⟨head, headSmall⟩, ⟨sector, sectorSmall⟩⟩ := chs
  have low := toNat_ofNat_of_lt (show cylinder % 256 < 256 by omega)
  have middle := toNat_ofNat_of_lt (show sector + 64 * (cylinder / 256) < 256 by omega)
  simp only [decode, Chs.mk.injEq, Fin.mk.injEq, low, middle, toNat_ofNat_of_lt headSmall, true_and]
  omega

end Chs

/-! ### Entries -/

structure Partition where
  flag : UInt8
  start : Chs
  kind : UInt8
  last : Chs
  first : UInt32
  count : UInt32
  deriving DecidableEq, Repr

namespace Partition

/-- The flag that a boot code looks for. -/
def Active (partition : Partition) : Prop := partition.flag = 0x80

instance (partition : Partition) : Decidable partition.Active := inferInstanceAs (Decidable (_ = _))

/-- A free entry. -/
def free : Partition := ⟨0, ⟨0, 0, 0⟩, 0, ⟨0, 0, 0⟩, 0, 0⟩

def encode (partition : Partition) : Bytes :=
  [partition.flag] ++ partition.start.encode ++ [partition.kind] ++ partition.last.encode
    ++ leBytes 4 partition.first.toNat ++ leBytes 4 partition.count.toNat

/-- The entry in front of some bytes, and what comes behind it. -/
def decode : Bytes → Option (Partition × Bytes)
  | flag :: h :: s :: c :: kind :: h' :: s' :: c' :: f₀ :: f₁ :: f₂ :: f₃ :: n₀ :: n₁ :: n₂ :: n₃ :: rest =>
    some (⟨flag, .decode h s c, kind, .decode h' s' c', UInt32.ofNat (leNat [f₀, f₁, f₂, f₃]),
      UInt32.ofNat (leNat [n₀, n₁, n₂, n₃])⟩, rest)
  | _ => none

@[simp] theorem encode_length (partition : Partition) : partition.encode.length = 16 := by
  simp [encode, Chs.encode]

theorem word_back (word : UInt32) : UInt32.ofNat (leNat (leBytes 4 word.toNat)) = word := by
  rw [leNat_leBytes (show word.toNat < 256 ^ 4 from word.toNat_lt), UInt32.ofNat_toNat]

/-- **An entry reads back.** -/
theorem decode_encode (partition : Partition) (rest : Bytes) :
    decode (partition.encode ++ rest) = some (partition, rest) := by
  have first := word_back partition.first
  have count := word_back partition.count
  simp only [leBytes] at first count
  simp only [encode, Chs.encode, leBytes, List.cons_append, List.nil_append, decode, Chs.decode_encode, first, count]

/-- So many entries, one behind the other. -/
def decodeAll : Nat → Bytes → Option (List Partition)
  | 0, _ => some []
  | entries + 1, bytes => do
    let (partition, rest) ← decode bytes
    let more ← decodeAll entries rest
    pure (partition :: more)

theorem decodeAll_encode (table : List Partition) (rest : Bytes) :
    decodeAll table.length (table.flatMap encode ++ rest) = some table := by
  induction table with
  | nil => rfl
  | cons partition table ih =>
    rw [List.length_cons, List.flatMap_cons, List.append_assoc, decodeAll, decode_encode]
    simp only [Option.bind_eq_bind, Option.bind_some, ih, Option.pure_def]

end Partition

/-! ### Sectors -/

/-- **The partitions of a sector**, if it has the signature. -/
def partitions (sector : Bytes) : Option (List Partition) :=
  if subrange sector 510 512 = [0x55, 0xaa] then
    (Partition.decodeAll 4 (sector.drop 446)).map (·.filter (·.kind ≠ 0))
  else none

/-- **A sector made of entries is read as their partitions.** -/
theorem partitions_of_table {code rest : Bytes} {table : List Partition} (room : code.length = 446)
    (four : table.length = 4) :
    partitions (code ++ (table.flatMap Partition.encode ++ [0x55, 0xaa]) ++ rest)
      = some (table.filter (·.kind ≠ 0)) := by
  have length : (table.flatMap Partition.encode).length = 64 := by
    rw [List.length_flatMap, List.map_congr_left fun partition _ => partition.encode_length, List.map_const',
      List.sum_replicate, four]
    rfl
  have signature : subrange (code ++ (table.flatMap Partition.encode ++ [0x55, 0xaa]) ++ rest) 510 512
      = [0x55, 0xaa] := by
    rw [subrange, List.append_assoc, List.append_assoc, ← List.append_assoc code,
      List.drop_left' (by rw [List.length_append, room, length])]
    rfl
  have entries := Partition.decodeAll_encode table ([0x55, 0xaa] ++ rest)
  rw [four] at entries
  rw [partitions, if_pos signature, List.append_assoc, List.drop_left' room, List.append_assoc, entries]
  rfl

end Bootsmith.Library
