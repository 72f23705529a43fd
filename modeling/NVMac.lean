import NVMac.Lib.Machine
import NVMac.Lib.Outcome
import NVMac.Lib.Slots
import NVMac.Lib.Ledger
import NVMac.Lib.RwLock
import NVMac.Lib.Registry
import NVMac.Lib.PciBars
import NVMac.Lib.Digits
import NVMac.Types
import NVMac.Keys
import NVMac.Apertures
import NVMac.AllocRegistry
import NVMac.PagesDriverKit
import NVMac.PagesKernel
import NVMac.DmaRun
import NVMac.DmaLedger
import NVMac.DmaMask
import NVMac.DmaTallies
import NVMac.Mutexes
import NVMac.RwLocks
import NVMac.Semaphores
import NVMac.BarsDriverKit
import NVMac.BarsKernel
import NVMac.Lib.Refs
import NVMac.Lib.Holders
import NVMac.Mappings
import NVMac.MappingsDriverKit
import NVMac.MappingsKernel
import NVMac.AllocThreads
import NVMac.Lib.Bytes
import NVMac.PciConfig
import NVMac.ServiceDriverKit
import NVMac.Lib.CString
import NVMac.Lib.Format
import NVMac.PageGeometry
import NVMac.Clock
import NVMac.Strings
import NVMac.ServiceKernel
import NVMac.Lib.Objects
import NVMac.SyncObjects
import NVMac.Firmware
import NVMac.FirmwareKernelRun
import NVMac.NvLink
import NVMac.MapThreads
import NVMac.MapThreadsDriverKit
import NVMac.PagesRun
import NVMac.FirmwareDriverKit
import NVMac.ServiceRun
import NVMac.PciRun
import NVMac.AllocBlocks
import NVMac.SemaphoresRun
import NVMac.Lib.Tally
import NVMac.LockTallies
import NVMac.AllocObjects
import NVMac.AllocObjectsRun
