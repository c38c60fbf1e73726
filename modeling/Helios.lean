import Helios.Artifact.Authorised
import Helios.Artifact.ImageCodec
import Helios.Compositor.Damage
import Helios.Kernel.ByteParking
import Helios.Kernel.DebugConsole
import Helios.Kernel.NotifyRuns
import Helios.Kernel.PipeEnds
import Helios.Kernel.PollRound
import Helios.Kernel.ProcessTable
import Helios.Kernel.InstanceMemory
import Helios.Kernel.ReceiveBackpressure
import Helios.Kernel.RegionOwners
import Helios.Kernel.SwapTransparency
import Helios.Kernel.TaskArenaRuns
import Helios.Kernel.VsockSlots
import Helios.Kernel.VsockEof
import Helios.Kernel.WasixProcess
import Helios.Kernel.WheelRuns
import Helios.Netstack.ChecksumLanes
import Helios.Netstack.PartialChecksum
import Helios.Netstack.TcpAccounting
import Helios.Netstack.TcpReassembly
import Helios.Netstack.TcpRetransmission
import Helios.Netstack.TcpStream
import Helios.Netstack.UdpDemux
import Helios.Virtio.InFlightRuns
import Helios.Virtio.QueueRuns
