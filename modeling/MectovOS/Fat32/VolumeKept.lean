/-
This file proves when the sectors that a mounted FAT32 volume reaches lie where
they belong. `fat32_init` bounds the clusters by the sectors of the volume and
leaves the length of the table aside, and its sums can pass `2 ^ 32`: the
accesses stay inside exactly when the tables end below `2 ^ 32` (or behind the
volume) and the entry of the last cluster lies in every copy of the table.
-/

import MectovOS.Fat32.Volume

namespace MectovOS.Fat32

open ByteMemory

/-! ### Where the accesses belong -/

/-- Is a cluster one that the driver takes for valid? -/
def Volume.Valid (volume : Volume) (cluster : Nat) : Prop :=
  fat32RootCluster ≤ cluster ∧ cluster ≤ volume.maxCluster

/-- Every access of a valid cluster stays where it belongs: an entry is read in the table and
written in its own copy of it, the sectors of the cluster lie in the data region, and this region
and the tables are apart. -/
structure AccessesInside (volume : Volume) : Prop where
  table : ∀ cluster, volume.Valid cluster →
    volume.reserved ≤ volume.fatSector cluster ∧
      volume.fatSector cluster < volume.reserved + volume.sectorsPerFat
  copies : ∀ cluster, volume.Valid cluster → ∀ copy < volume.numFats,
    volume.reserved + copy * volume.sectorsPerFat ≤ volume.mirrorSector copy cluster ∧
      volume.mirrorSector copy cluster < volume.reserved + (copy + 1) * volume.sectorsPerFat
  clusters : ∀ cluster, volume.Valid cluster → ∀ sector < volume.spc,
    volume.firstData ≤ (volume.clusterSector cluster + sector) % 2 ^ 32 ∧
      (volume.clusterSector cluster + sector) % 2 ^ 32 < volume.totalSectors
  apart : ∀ sector, volume.reserved ≤ sector →
    sector < volume.reserved + volume.numFats * volume.sectorsPerFat →
      ¬ (volume.firstData ≤ sector ∧ sector < volume.totalSectors)

/-- The farthest sector of the table that an entry lies in; the offsets of entries wrap at
`2 ^ 32`. -/
def Volume.tableReach (volume : Volume) : Nat := min volume.maxCluster (2 ^ 30 - 1) * 4 / 512

/-- The tables end below `2 ^ 32`, or the volume ends before them; and there is no cluster, or the
farthest entry lies in the table, and so it does in the last copy. -/
def TablesHold (volume : Volume) : Prop :=
  (volume.reserved + volume.numFats * volume.sectorsPerFat < 2 ^ 32 ∨
      volume.totalSectors ≤ volume.reserved) ∧
    (volume.maxCluster < fat32RootCluster ∨
      volume.tableReach < volume.sectorsPerFat ∧
        volume.reserved + (volume.numFats - 1) * volume.sectorsPerFat + volume.tableReach < 2 ^ 32)

/-! ### What the boot sector is checked for -/

theorem le16_lt (sector : Bytes) (offset : Nat) : le16 sector offset < 2 ^ 16 := by
  have byte0 := (sector offset).toNat_lt
  have byte1 := (sector (offset + 1)).toNat_lt
  unfold le16
  omega

theorem read32_small (sector : Bytes) (address : Nat) : read32 sector address < 2 ^ 32 := by
  have byte0 := (sector address).toNat_lt
  have byte1 := (sector (address + 1)).toNat_lt
  have byte2 := (sector (address + 2)).toNat_lt
  have byte3 := (sector (address + 3)).toNat_lt
  unfold read32
  omega

/-- What is known of the globals when a boot sector is accepted. -/
structure Accepted (volume : Volume) : Prop where
  bps : volume.bps = 512
  someSpc : 0 < volume.spc
  smallSpc : volume.spc ≤ 16
  reserved : volume.reserved < 2 ^ 16
  someFats : 0 < volume.numFats
  fewFats : volume.numFats ≤ 4
  someFat : 0 < volume.sectorsPerFat
  smallFat : volume.sectorsPerFat < 2 ^ 32
  total : volume.totalSectors < 2 ^ 32
  first : volume.firstData =
    (volume.reserved + volume.numFats * volume.sectorsPerFat) % 2 ^ 32
  data : volume.firstData < volume.totalSectors
  last : volume.maxCluster =
    (1 + (volume.totalSectors - volume.firstData) / volume.spc) % 2 ^ 32

theorem accepted_of_fat32Init {sector : Option Bytes} {volume : Volume}
    (mounted : fat32Init sector = some volume) : Accepted volume := by
  cases sector with
  | none => exact absurd mounted (by simp [fat32Init])
  | some sector =>
    rw [fat32Init] at mounted
    split_ifs at mounted with marks bps spc fats fat total data
    obtain rfl := Option.some.inj mounted
    refine ⟨not_not.mp bps, ?_, ?_, le16_lt sector 14, ?_, ?_, Nat.pos_of_ne_zero fat,
      read32_small sector 36, ?_, ?_, not_le.mp data, ?_⟩
    · exact Nat.pos_of_ne_zero (not_or.mp spc).1
    · exact not_lt.mp (not_or.mp spc).2
    · exact Nat.pos_of_ne_zero (not_or.mp (not_or.mp fats).2).1
    · exact not_lt.mp (not_or.mp (not_or.mp fats).2).2
    · show (if read32 sector 32 ≠ 0 then read32 sector 32 else le16 sector 19) < 2 ^ 32
      have wide := read32_small sector 32
      have narrow := le16_lt sector 19
      split <;> omega
    · show (le16 sector 14 + (sector 16).toNat * read32 sector 36 % 2 ^ 32) % 2 ^ 32 =
        (le16 sector 14 + (sector 16).toNat * read32 sector 36) % 2 ^ 32
      exact Nat.add_mod_mod _ _ _
    · show (fat32RootCluster + ((volumeOf sector).totalSectors - (volumeOf sector).firstData) /
        (volumeOf sector).spc - 1) % 2 ^ 32 = _
      rw [fat32RootCluster]
      generalize ((volumeOf sector).totalSectors - (volumeOf sector).firstData) /
        (volumeOf sector).spc = clusters
      congr 1
      omega

/-! ### Sectors of the table -/

section
variable {volume : Volume} (accepted : Accepted volume)
include accepted

/-- The sector of an entry, counted from the start of the table, is at most the farthest one. -/
theorem fatSector_eq {cluster : Nat} (valid : volume.Valid cluster) :
    ∃ index ≤ volume.tableReach, volume.fatSector cluster = volume.reserved + index := by
  have reserved := accepted.reserved
  have last := valid.2
  refine ⟨cluster * 4 % 2 ^ 32 / 512, ?_, ?_⟩
  · rw [Volume.tableReach]
    omega
  · rw [Volume.fatSector, accepted.bps]
    exact Nat.mod_eq_of_lt (by omega)

/-- The farthest entry is that of a valid cluster. -/
theorem fatSector_reach (some : fat32RootCluster ≤ volume.maxCluster) :
    volume.Valid (min volume.maxCluster (2 ^ 30 - 1)) ∧
      volume.fatSector (min volume.maxCluster (2 ^ 30 - 1)) =
        volume.reserved + volume.tableReach := by
  have reserved := accepted.reserved
  rw [fat32RootCluster] at some
  refine ⟨⟨?_, min_le_left _ _⟩, ?_⟩
  · rw [fat32RootCluster]
    omega
  · rw [Volume.fatSector, accepted.bps, Volume.tableReach]
    generalize least : min volume.maxCluster (2 ^ 30 - 1) = cluster
    have small : cluster ≤ 2 ^ 30 - 1 := by omega
    rw [Nat.mod_eq_of_lt (show cluster * 4 < 2 ^ 32 from by omega)]
    exact Nat.mod_eq_of_lt (by omega)

/-- Where an entry is written, for an entry whose sector is known. -/
theorem mirrorSector_eq {cluster index : Nat} (copy : Nat)
    (found : volume.fatSector cluster = volume.reserved + index) :
    volume.mirrorSector copy cluster =
      (volume.reserved + copy * volume.sectorsPerFat + index) % 2 ^ 32 := by
  have reserved := accepted.reserved
  rw [Volume.mirrorSector, found]
  generalize copy * volume.sectorsPerFat = start
  omega

/-- The sectors of a cluster lie in the data region. -/
theorem clusterSector_inside {cluster : Nat} (valid : volume.Valid cluster) {sector : Nat}
    (inside : sector < volume.spc) :
    volume.firstData ≤ (volume.clusterSector cluster + sector) % 2 ^ 32 ∧
      (volume.clusterSector cluster + sector) % 2 ^ 32 < volume.totalSectors := by
  obtain ⟨low, high⟩ := valid
  rw [fat32RootCluster] at low
  rw [accepted.last] at high
  have total := accepted.total
  have data := accepted.data
  have before : cluster - 2 + 1 ≤ (volume.totalSectors - volume.firstData) / volume.spc := by
    generalize (volume.totalSectors - volume.firstData) / volume.spc = clusters at high ⊢
    omega
  have room : (cluster - 2 + 1) * volume.spc ≤ volume.totalSectors - volume.firstData :=
    le_trans (Nat.mul_le_mul_right _ before) (Nat.div_mul_le_self _ _)
  rw [Nat.add_mul, Nat.one_mul] at room
  rw [Volume.clusterSector, fat32RootCluster]
  generalize (cluster - 2) * volume.spc = start at room ⊢
  omega

end

/-- The accesses of a mounted volume stay inside exactly when its tables hold its clusters. -/
theorem accessesInside_iff {sector : Option Bytes} {volume : Volume}
    (mounted : fat32Init sector = some volume) : AccessesInside volume ↔ TablesHold volume := by
  have accepted := accepted_of_fat32Init mounted
  have total := accepted.total
  have first := accepted.first
  have data := accepted.data
  have someFats := accepted.someFats
  constructor
  · intro inside
    refine ⟨?_, ?_⟩
    · by_contra neither
      obtain ⟨high, early⟩ := not_or.mp neither
      refine inside.apart (max volume.reserved volume.firstData) (le_max_left _ _) ?_
        ⟨le_max_right _ _, ?_⟩
      all_goals omega
    · rcases Nat.lt_or_ge volume.maxCluster fat32RootCluster with empty | some
      · exact Or.inl empty
      obtain ⟨valid, farthest⟩ := fatSector_reach accepted some
      have inTable := (inside.table _ valid).2
      have inCopy := (inside.copies _ valid (volume.numFats - 1) (by omega)).1
      rw [mirrorSector_eq accepted _ farthest] at inCopy
      rw [farthest] at inTable
      have smallFat := accepted.smallFat
      generalize (volume.numFats - 1) * volume.sectorsPerFat = start at inCopy ⊢
      exact Or.inr ⟨by omega, by omega⟩
  · rintro ⟨ends, holds⟩
    have reach : ∀ cluster, volume.Valid cluster → volume.tableReach < volume.sectorsPerFat ∧
        volume.reserved + (volume.numFats - 1) * volume.sectorsPerFat + volume.tableReach <
          2 ^ 32 := by
      rintro cluster ⟨low, high⟩
      rcases holds with empty | holds
      · exact absurd (le_trans low high) (not_le.mpr empty)
      · exact holds
    refine ⟨fun cluster valid => ?_, fun cluster valid copy less => ?_,
      fun cluster valid sector => clusterSector_inside accepted valid,
      fun sector low high both => ?_⟩
    · obtain ⟨index, near, found⟩ := fatSector_eq accepted valid
      have room := (reach cluster valid).1
      rw [found]
      omega
    · obtain ⟨index, near, found⟩ := fatSector_eq accepted valid
      obtain ⟨room, fits⟩ := reach cluster valid
      have before : copy * volume.sectorsPerFat ≤ (volume.numFats - 1) * volume.sectorsPerFat :=
        Nat.mul_le_mul_right _ (by omega)
      rw [mirrorSector_eq accepted _ found, Nat.add_mul, Nat.one_mul]
      generalize (volume.numFats - 1) * volume.sectorsPerFat = last at before fits
      generalize copy * volume.sectorsPerFat = start at before ⊢
      omega
    · rcases ends with below | early
      · omega
      · omega

/-- The bytes of a boot sector: two tables, sectors of 512 bytes, clusters of one sector, and 32
reserved sectors. -/
def bootSector (sectorsPerFat totalSectors : Nat) : Bytes :=
  write32 (write32 (fun index =>
    if index = 510 then 0x55
    else if index = 511 then 0xAA
    else if 82 ≤ index ∧ index < 90 then fsType.getD (index - 82) 0
    else if index = 12 then 2
    else if index = 13 then 1
    else if index = 14 then 32
    else if index = 16 then 2
    else 0) 36 sectorsPerFat) 32 totalSectors

/-- A volume of 1000 sectors with tables of eight sectors holds the entries of all its clusters. -/
theorem accessesInside_eight :
    ∃ volume, fat32Init (some (bootSector 8 1000)) = some volume ∧ AccessesInside volume :=
  ⟨volumeOf (bootSector 8 1000), by decide +kernel,
    (@accessesInside_iff (some (bootSector 8 1000)) _ (by decide +kernel)).mpr
      (by unfold TablesHold; decide +kernel)⟩

/-- A volume of 1000 sectors with tables of one sector is mounted too, and the entry of cluster
256 lies in its first cluster. -/
theorem accessesInside_short :
    ¬ ∀ (sector : Option Bytes) (volume : Volume),
      fat32Init sector = some volume → AccessesInside volume := by
  intro all
  have mounted : fat32Init (some (bootSector 1 1000)) = some (volumeOf (bootSector 1 1000)) := by
    decide +kernel
  have inside := (all _ _ mounted).table 256 ⟨by decide, by decide +kernel⟩
  revert inside
  decide +kernel

end MectovOS.Fat32
