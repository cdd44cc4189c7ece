import BrilloBoot.Lib.Bytes
import BrilloBoot.Lib.CrcRegister
import BrilloBoot.Lib.Machine
import BrilloBoot.Lib.Arbiter
import BrilloBoot.Lib.Disk
import BrilloBoot.Lib.Files
import BrilloBoot.Lib.DevicePath
import BrilloBoot.Lib.Ledger
import BrilloBoot.Lib.LinkedList
import BrilloBoot.Lib.PacketFilter
import BrilloBoot.Lib.DoWhile
import BrilloBoot.Lib.Trace
import BrilloBoot.Lib.CounterSearch
import BrilloBoot.Lib.Utf8
import BrilloBoot.Lib.Tokenizer
import BrilloBoot.Lib.BufferPool
import BrilloBoot.AbData
import BrilloBoot.Crc32
import BrilloBoot.Ops
import BrilloBoot.AbFlow
import BrilloBoot.Metadata
import BrilloBoot.ChecksumCoverage
import BrilloBoot.Slots
import BrilloBoot.Calls
import BrilloBoot.Invalidation
import BrilloBoot.Standing
import BrilloBoot.Canonical
import BrilloBoot.Schedule
import BrilloBoot.SlotState
import BrilloBoot.Corruption
import BrilloBoot.PartitionIo
import BrilloBoot.Addressing
import BrilloBoot.Gpt
import BrilloBoot.Utf8
import BrilloBoot.PartitionLookup
import BrilloBoot.Utf8Scan
import BrilloBoot.Utf8Text
import BrilloBoot.Utf8Soundness
import BrilloBoot.Utf8Bounds
import BrilloBoot.GptSearch
import BrilloBoot.NameLookup
import BrilloBoot.ReadAfterWrite
import BrilloBoot.LookupFailure
import BrilloBoot.BootKernel
import BrilloBoot.BootRange
import BrilloBoot.Cmdline
import BrilloBoot.Device
import BrilloBoot.Main
import BrilloBoot.LoopBound
import BrilloBoot.Fallback
import BrilloBoot.PowerCycles
import BrilloBoot.PartitionTable
import BrilloBoot.MakeMiscImage
import BrilloBoot.PlaybackTest
import BrilloBoot.HostOps
import BrilloBoot.Harness
import BrilloBoot.MiscImage
import BrilloBoot.AbTest
import BrilloBoot.DiskBlockIo
import BrilloBoot.Pools
import BrilloBoot.LoopPools
import BrilloBoot.Console
import BrilloBoot.TestHarness
import BrilloBoot.TestVerdict
import BrilloBoot.PlayFile
import BrilloBoot.RecordTest
import BrilloBoot.Firewall
