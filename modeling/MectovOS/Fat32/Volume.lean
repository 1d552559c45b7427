/-
This file models how src/sys/fat32.c mounts a volume and reaches its tables and
clusters: `fat32_init` with its checks of the boot sector, the entries of the
file allocation table with their copies, and the clusters of the data region.
All sums and products are those of `uint32_t`.
-/

import MectovOS.Block.Batches

namespace MectovOS.Fat32

open ByteMemory Block

/-! ### Mounting -/

/-- The globals that `fat32_init` sets. -/
structure Volume where
  bps : Nat
  spc : Nat
  reserved : Nat
  numFats : Nat
  sectorsPerFat : Nat
  root : Nat
  totalSectors : Nat
  firstData : Nat
  maxCluster : Nat
  deriving DecidableEq

/-- `FAT32_ROOT_CLUSTER`, `FAT32_EOC_MIN`, `FAT32_FREE_CLUSTER` and `FAT32_MAX_SPC`. -/
def fat32RootCluster : Nat := 2
def fat32EocMin : Nat := 0x0FFFFFF8
def fat32FreeCluster : Nat := 0
def fat32MaxSpc : Nat := 16

/-- The little-endian 16-bit field at an offset. -/
def le16 (sector : Bytes) (offset : Nat) : Nat :=
  (sector offset).toNat + 256 * (sector (offset + 1)).toNat

/-- The text "FAT32   " of `FAT32_FS_TYPE_OFF`. -/
def fsType : List UInt8 := [0x46, 0x41, 0x54, 0x33, 0x32, 0x20, 0x20, 0x20]

/-- Does a boot sector carry the marks of FAT32? -/
def signed (sector : Bytes) : Bool :=
  sector 510 == 0x55 && sector 511 == 0xAA &&
    (List.range 8).map (fun index => sector (82 + index)) == fsType

/-- What a boot sector sets the globals to. -/
def volumeOf (sector : Bytes) : Volume :=
  let total := if read32 sector 32 ≠ 0 then read32 sector 32 else le16 sector 19
  let first := (le16 sector 14 + (sector 16).toNat * read32 sector 36 % 2 ^ 32) % 2 ^ 32
  let spc := (sector 13).toNat
  { bps := le16 sector 11
    spc := spc
    reserved := le16 sector 14
    numFats := (sector 16).toNat
    sectorsPerFat := read32 sector 36
    root := max (read32 sector 44) fat32RootCluster
    totalSectors := total
    firstData := first
    maxCluster := (fat32RootCluster + (total - first) / spc - 1) % 2 ^ 32 }

/-- `fat32_init`, at the boot sector that the drive gives; `none` where it refuses it. -/
def fat32Init : Option Bytes → Option Volume
  | none => none
  | some sector =>
    let volume := volumeOf sector
    if signed sector = false then none
    else if volume.bps ≠ 512 then none
    else if volume.spc = 0 ∨ fat32MaxSpc < volume.spc then none
    else if volume.reserved = 0 ∨ volume.numFats = 0 ∨ 4 < volume.numFats then none
    else if volume.sectorsPerFat = 0 then none
    else if volume.totalSectors = 0 then none
    else if volume.totalSectors ≤ volume.firstData then none
    else some volume

/-! ### Sectors -/

/-- The sector that the entry of a cluster is read from. -/
def Volume.fatSector (volume : Volume) (cluster : Nat) : Nat :=
  (volume.reserved + cluster * 4 % 2 ^ 32 / volume.bps) % 2 ^ 32

/-- The place of the entry of a cluster in its sector. -/
def Volume.fatOffset (volume : Volume) (cluster : Nat) : Nat := cluster * 4 % 2 ^ 32 % volume.bps

/-- The sector that the entry of a cluster is written to in a copy of the table. -/
def Volume.mirrorSector (volume : Volume) (copy cluster : Nat) : Nat :=
  (volume.reserved + copy * volume.sectorsPerFat + volume.fatSector cluster + 2 ^ 32 -
    volume.reserved) % 2 ^ 32

/-- `fat32_cluster_sector` -/
def Volume.clusterSector (volume : Volume) (cluster : Nat) : Nat :=
  (volume.firstData + (cluster - fat32RootCluster) * volume.spc) % 2 ^ 32

/-! ### The drive -/

/-- The drive: what it refuses, and the bytes on it. -/
structure Drive where
  readRefused : Nat → Nat → Bool
  writeRefused : Nat → Nat → Bool
  content : Bytes

/-- `fat32_read_sectors` -/
def readSectors (drive : Drive) (lba count : Nat) (buf : Bytes) : Bytes :=
  Block.readSectors drive.readRefused drive.content lba count 0 count 0 buf

/-- `fat32_write_sectors`; were all of them stored? -/
def writeSectors (drive : Drive) (lba count : Nat) (data : Bytes) : Bool × Drive :=
  let written := Block.writeSectors drive.writeRefused data lba count count 0 drive.content
  (written.1, { drive with content := written.2 })

/-- `fat32_read_cluster` -/
def readCluster (volume : Volume) (drive : Drive) (cluster : Nat) (buf : Bytes) : Bytes :=
  if cluster < fat32RootCluster ∨ volume.maxCluster < cluster then
    fillBytes buf 0 0 (volume.spc * 512)
  else readSectors drive (volume.clusterSector cluster) volume.spc buf

/-- `fat32_write_cluster`; was the cluster stored? -/
def writeCluster (volume : Volume) (drive : Drive) (cluster : Nat) (data : Bytes) : Bool × Drive :=
  if cluster < fat32RootCluster ∨ volume.maxCluster < cluster then (false, drive)
  else writeSectors drive (volume.clusterSector cluster) volume.spc data

/-- `fat32_get_next`; `unset` is what the buffer of a sector holds before it is read. -/
def getNext (volume : Volume) (unset : Bytes) (drive : Drive) (cluster : Nat) : Nat :=
  read32 (readSectors drive (volume.fatSector cluster) 1 unset) (volume.fatOffset cluster) % 2 ^ 28

/-- The sector of the entry of a cluster, with a new value in the low 28 bits of the entry. -/
def linkedSector (volume : Volume) (unset : Bytes) (drive : Drive) (cluster value : Nat) : Bytes :=
  let sector := readSectors drive (volume.fatSector cluster) 1 unset
  let entry := read32 sector (volume.fatOffset cluster)
  write32 sector (volume.fatOffset cluster) (entry / 2 ^ 28 * 2 ^ 28 + value % 2 ^ 28)

/-- A sector written into the copies of the table from a copy on; were all of them stored? -/
def writeCopies (volume : Volume) (cluster : Nat) (sector : Bytes) :
    Nat → Nat → Drive → Bool × Drive
  | 0, _, drive => (true, drive)
  | count + 1, copy, drive =>
    let written := writeSectors drive (volume.mirrorSector copy cluster) 1 sector
    let later := writeCopies volume cluster sector count (copy + 1) written.2
    (written.1 && later.1, later.2)

/-- `fat32_set_next`; did every copy take the entry? -/
def setNext (volume : Volume) (unset : Bytes) (drive : Drive) (cluster value : Nat) :
    Bool × Drive :=
  writeCopies volume cluster (linkedSector volume unset drive cluster value) volume.numFats 0 drive

end MectovOS.Fat32
