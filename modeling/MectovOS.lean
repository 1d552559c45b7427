import MectovOS.Lib.Transition
import MectovOS.Mem.HeapRun
import MectovOS.Vmm.ShootdownSafe
import MectovOS.Task.Inherit
import MectovOS.Task.Frames
import MectovOS.Task.SafetyRun
import MectovOS.Task.Authorize
import MectovOS.Task.SafetyTick
import MectovOS.Task.View
import MectovOS.Task.Deferred
import MectovOS.Task.Munmap
import MectovOS.Task.AddressLimit
import MectovOS.Task.GrantsRun
import MectovOS.Task.UserPointer
import MectovOS.Task.DirtyRun
import MectovOS.Vmm.Frames
import MectovOS.Vmm.Paging
import MectovOS.Vmm.CloneExact
import MectovOS.Lib.Spans
import MectovOS.Ipc.Fifo
import MectovOS.Fd.Lossless
import MectovOS.Sync.Tokens
import MectovOS.Sync.Futex
import MectovOS.Sync.Wakes
import MectovOS.Vfs.Node
import MectovOS.Vfs.Remove
import MectovOS.Vfs.Create
import MectovOS.Vfs.Mount
import MectovOS.Vfs.Path
import MectovOS.Vfs.Rename
import MectovOS.Vfs.Calls
import MectovOS.Vfs.System
import MectovOS.Vfs.References
import MectovOS.Vfs.ReferencesKept
import MectovOS.Vfs.Tree
import MectovOS.Vfs.Sweeps
import MectovOS.Vfs.TreeKept
import MectovOS.Vfs.MountTable
import MectovOS.Vfs.MountKept
import MectovOS.Vfs.Permission
import MectovOS.Vfs.PermissionKept
import MectovOS.Lib.Splice
import MectovOS.Lib.Serial
import MectovOS.Net.Tcp
import MectovOS.Net.Sending
import MectovOS.Net.SendingKept
import MectovOS.Net.Receiving
import MectovOS.Net.ReceivingKept
import MectovOS.Net.TcpTable
import MectovOS.Net.Handshake
import MectovOS.Lib.Forest
import MectovOS.Vfs.Tmpfs
import MectovOS.Vfs.TmpfsKept
import MectovOS.Vfs.Load
import MectovOS.Vfs.LoadKept
import MectovOS.Vfs.WriteFile
import MectovOS.Vfs.WriteFileKept
import MectovOS.Vfs.PathNames
import MectovOS.Vfs.AbsPath
import MectovOS.Vfs.CreateFound
import MectovOS.Net.HandshakeKept
import MectovOS.Net.Slots
import MectovOS.Net.SlotsKept
import MectovOS.Net.Dhcp
import MectovOS.Net.DhcpKept
import MectovOS.Tls.Connection
import MectovOS.Tls.Handshake
import MectovOS.Tls.Authentic
import MectovOS.Tls.AuthenticKept
import MectovOS.Tls.Der
import MectovOS.Tls.X509
import MectovOS.Tls.ChainSound
import MectovOS.Tls.CertificateRead
import MectovOS.Tls.ChainKept
import MectovOS.Lib.Framing
import MectovOS.Tls.Reader
import MectovOS.Tls.ReaderKept
import MectovOS.Tls.Reassembly
import MectovOS.Tls.Plaintext
import MectovOS.Tls.PlaintextKept
import MectovOS.Shell.Lock
import MectovOS.Shell.LockKept
import MectovOS.Passwd.Sha256
import MectovOS.Passwd.Account
import MectovOS.Passwd.AccountKept
import MectovOS.Ata.SectorCache
import MectovOS.Ata.SectorCacheKept
import MectovOS.Lib.Virtqueue
import MectovOS.Virtio.Blk
import MectovOS.Virtio.BlkKept
import MectovOS.Virtio.Net
import MectovOS.Virtio.Matching
import MectovOS.Tls.Writer
import MectovOS.Tls.WriterKept
import MectovOS.Sync.Requeue
import MectovOS.Task.Heaviest
import MectovOS.Task.BoundedWait
import MectovOS.Mem.HeapSizes
import MectovOS.Task.Sigframe
import MectovOS.Task.SigreturnKept
import MectovOS.Task.MmapGap
import MectovOS.Task.WriteBack
import MectovOS.Lib.Buddy
import MectovOS.Vmm.FrameCache
import MectovOS.Vmm.FrameCacheKept
import MectovOS.Lib.Holders
import MectovOS.Gui.Windows
import MectovOS.Gui.Desktop
import MectovOS.Gui.Panes
import MectovOS.Gui.WindowsKept
import MectovOS.Gui.ClosesKept
import MectovOS.Gui.PointerKept
import MectovOS.Gui.DrawKept
import MectovOS.Gui.TableKept
import MectovOS.Fd.Poll
import MectovOS.Sync.Timeout
import MectovOS.Fd.Rewire
import MectovOS.Fd.Accept
import MectovOS.Fd.Write
import MectovOS.Block.Batches
import MectovOS.Fat32.Volume
import MectovOS.Fat32.VolumeKept
import MectovOS.Ext2.Extents
import MectovOS.Ext2.ExtentsKept
import MectovOS.Tls.Validity
import MectovOS.Lib.Absorb
import MectovOS.Tls.Poly1305
import MectovOS.Lib.LittleEndian
import MectovOS.Tls.Poly1305Words
import MectovOS.Tls.Poly1305Kept
import MectovOS.Lib.Keystream
import MectovOS.Tls.Ciphers
import MectovOS.Tls.Aead
import MectovOS.Tls.AeadKept
import MectovOS.Lib.Montgomery
import MectovOS.Tls.Bignum
import MectovOS.Tls.BignumWords
import MectovOS.Tls.MontgomeryKept
import MectovOS.Tls.ModexpKept
import MectovOS.Lib.Sha2
import MectovOS.Tls.DerKept
import MectovOS.Tls.Hash
import MectovOS.Tls.HashKept
import MectovOS.Tls.HostKept
import MectovOS.Browser.Chunks
import MectovOS.Drivers.Breakpoints
import MectovOS.Drivers.Timer
import MectovOS.Tls.Hkdf
