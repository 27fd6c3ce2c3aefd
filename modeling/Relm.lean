import Relm.Ept.PageMap
import Relm.Ept.MixedSizes
import Relm.Ept.Translation
import Relm.Vm.Isolation
import Relm.Vm.AccessSafety
import Relm.Vm.HostView
import Relm.Vm.Iommu
import Relm.Vm.Windows
import Relm.Vm.Create
import Relm.Vm.Lifecycle
import Relm.Vm.Supply
import Relm.Vm.Copies
import Relm.Vm.WholeLife
import Relm.Vm.MmioAtomic
import Relm.Boot.Layout
import Relm.Boot.GuestPages
import Relm.Boot.Handoff
import Relm.Firmware.FileDir
import Relm.Decoder.Zydis
import Relm.Vmx.HostState
import Relm.Vmx.MsrAreas
import Relm.Vmx.ApicPage
import Relm.Vmx.Eoi
import Relm.Vmx.Ipi
import Relm.Vmx.ApicTimer
import Relm.Vmx.Halt
import Relm.Vmx.IoPorts
import Relm.Vmx.Cr3Cache
import Relm.Vmx.VirtualCopy
import Relm.Vmx.GuestTables
import Relm.Vmx.ApicAccess
import Relm.Vmx.PortReads
import Relm.Svm.Mmu
import Relm.Svm.NptRam
import Relm.Svm.MemOps
import Relm.Arm64.Stage2Ram
import Relm.Arm64.Stage2MapRange
import Relm.Arm64.Stage2UnmapRange
import Relm.Arm64.Stage2Geometry
import Relm.Arm64.Stage2Lifetime
import Relm.Virtio.Reservations
import Relm.Virtio.Readiness
import Relm.Virtio.Reset
import Relm.Virtio.MmioExit
import Relm.Virtio.QueueConfig
import Relm.Vmx.MsrBitmap
import Relm.Vmx.RegisterFlow
import Relm.Vmx.HostCpus
import Relm.Vmx.VcpuInit
import Relm.Vmx.Threads
