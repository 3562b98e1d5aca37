import SonicaEnb.Lib.Wheel
import SonicaEnb.Lib.SortedMap
import SonicaEnb.Lib.Run
import SonicaEnb.Lib.Toggle
import SonicaEnb.Lib.Rounds
import SonicaEnb.Phy.RaNbiot
import SonicaEnb.Mac.SchedUe
import SonicaEnb.Mac.SchedGrid
import SonicaEnb.Mac.SchedCarrier
import SonicaEnb.Mac.TtiStep
import SonicaEnb.Mac.Frames
import SonicaEnb.Mac.UlTurn
import SonicaEnb.Mac.UlAgain
import SonicaEnb.Mac.Ring
import SonicaEnb.Mac.Msg3Queue
import SonicaEnb.Mac.DlTurn
import SonicaEnb.Mac.ResultRing
import SonicaEnb.Mac.RarFollowUp
import SonicaEnb.Mac.DlQueue
import SonicaEnb.Mac.DlOnce
import SonicaEnb.Mac.IdleBlocks
import SonicaEnb.Mac.UlGrid
import SonicaEnb.Mac.Mac
import SonicaEnb.Phy.Txrx
import SonicaEnb.Phy.Npdsch
import SonicaEnb.Phy.SfWorker
import SonicaEnb.Phy.Ndi
import SonicaEnb.Phy.Msg3Timing
import SonicaEnb.Phy.Dci
import SonicaEnb.Phy.Enb
import SonicaEnb.Phy.UlGrants
import SonicaEnb.Phy.DciAgreement
import SonicaEnb.Phy.WorkDl
import SonicaEnb.Phy.Transmit
import SonicaEnb.Phy.NpdschQueue
import SonicaEnb.Phy.Sib1Blocks
import SonicaEnb.Lib.Walk
import SonicaEnb.Mac.DlWindow
import SonicaEnb.Mac.TtiOnce
import SonicaEnb.Mac.Reservations
import SonicaEnb.Mac.Broadcast
import SonicaEnb.Mac.Exclusive
import SonicaEnb.Mac.Handover
import SonicaEnb.Mac.Throttle
import SonicaEnb.Mac.WaitTimer
import SonicaEnb.Lib.Events
import SonicaEnb.Upper.S1Setup
import SonicaEnb.Mac.SchPdu
import SonicaEnb.Lib.Bits
import SonicaEnb.Mac.Sib1Hfn
import SonicaEnb.Mac.UePdu
import SonicaEnb.Mac.MacDb
import SonicaEnb.Mac.RntiTurn
import SonicaEnb.Mac.RarQueue
import SonicaEnb.Lib.Search
import SonicaEnb.Upper.S1apUsers
import SonicaEnb.Upper.UserList
import SonicaEnb.Upper.UserIds
import SonicaEnb.Upper.MmeIds
import SonicaEnb.Upper.UserView
import SonicaEnb.Upper.Stack
import SonicaEnb.Upper.Databases
import SonicaEnb.Upper.Contexts
import SonicaEnb.Upper.BitRef
import SonicaEnb.Upper.RrcSdu
import SonicaEnb.Mac.Allocations
import SonicaEnb.Mac.AllocCalls
import SonicaEnb.Mac.DlSpace
import SonicaEnb.Mac.Drain
import SonicaEnb.Mac.PduElements
import SonicaEnb.Mac.RarBound
import SonicaEnb.Mac.UlDemand
import SonicaEnb.Lib.Pool
import SonicaEnb.Mac.PduBuffers
import SonicaEnb.Mac.ConRes
import SonicaEnb.Mac.LastTti
import SonicaEnb.Lib.Blocks
import SonicaEnb.Phy.Nprach
import SonicaEnb.Phy.NprachReset
import SonicaEnb.Lib.Rows
import SonicaEnb.Phy.Npusch
import SonicaEnb.Phy.Cell
import SonicaEnb.Phy.NpuschBuffer
import SonicaEnb.Lib.Interleave
import SonicaEnb.Phy.Workers
import SonicaEnb.Phy.TtiSemaphore
import SonicaEnb.Phy.Shutdown
import SonicaEnb.Phy.NprachWorker
import SonicaEnb.Phy.NprachOccasion
import SonicaEnb.Phy.NprachStop
import SonicaEnb.Lib.Region
import SonicaEnb.Mac.MacPdu
import SonicaEnb.Mac.PduFill
import SonicaEnb.Mac.PduPacket
import SonicaEnb.Mac.PduRead
import SonicaEnb.Mac.PduRoundTrip
import SonicaEnb.Upper.Multiqueue
import SonicaEnb.Upper.QueueThreads
import SonicaEnb.Upper.QueueOrder
import SonicaEnb.Upper.QueueWakeups
import SonicaEnb.Lib.PriorityQueue
import SonicaEnb.Upper.Timers
import SonicaEnb.Upper.TimersSilent
import SonicaEnb.Upper.TimersOnTime
import SonicaEnb.Phy.RarAgreement
import SonicaEnb.Phy.Sib1Search
