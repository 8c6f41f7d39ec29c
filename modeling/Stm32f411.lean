import Stm32f411.InheritanceRelaxation
import Stm32f411.RtosTypes
import Stm32f411.RtosKernel
import Stm32f411.RtosIpc
import Stm32f411.LabelledRuns
import Stm32f411.StatementPrograms
import Stm32f411.MaskedSections
import Stm32f411.SettledSections
import Stm32f411.SectionRuns
import Stm32f411.WaitGraphs
import Stm32f411.RtosSystem
import Stm32f411.RtosTickSteps
import Stm32f411.RtosKernelSpec
import Stm32f411.RtosBootSpec
import Stm32f411.RtosCallSpec
import Stm32f411.RtosStepSpec
import Stm32f411.KernelSoundness
import Stm32f411.RingBuffer
import Stm32f411.QueueStorage
import Stm32f411.WaiterService
import Stm32f411.PriorityInheritance
import Stm32f411.Preemption
import Stm32f411.StructuralSafety
import Stm32f411.WrappingClock
import Stm32f411.Deadlines
import Stm32f411.OwnershipCount
import Stm32f411.MutexBookkeeping
import Stm32f411.LockOrder
import Stm32f411.OpenSpans
import Stm32f411.CallTraces
import Stm32f411.CallHistory
import Stm32f411.MutexExclusion
import Stm32f411.SemaphoreTokens
import Stm32f411.QueueFifo
import Stm32f411.QueueRoom
import Stm32f411.QueueSurroundings
import Stm32f411.SurroundedQueues
import Stm32f411.QueueMemory
import Stm32f411.HandlerCalls
import Stm32f411.InterruptedTick
import Stm32f411.SectionCode
import Stm32f411.KernelMeaning
import Stm32f411.CallMeaning
import Stm32f411.TickCode
import Stm32f411.KernelProcessor
import Stm32f411.LiveProcessor
import Stm32f411.SectionBystanders
import Stm32f411.CriticalSections
import Stm32f411.FailedCalls
import Stm32f411.WaiterOrder
import Stm32f411.CyclicScan
import Stm32f411.RoundRobin
import Stm32f411.RegisterPrograms
import Stm32f411.SharedDevices
import Stm32f411.UsartReceive
import Stm32f411.UsartReports
import Stm32f411.UsartTransmit
import Stm32f411.UsartDevice
import Stm32f411.UsartSending
import Stm32f411.UsartDelivery
import Stm32f411.UsartLine
import Stm32f411.I2cTransfer
import Stm32f411.I2cSummaries
import Stm32f411.I2cReceiving
import Stm32f411.I2cProtocol
import Stm32f411.SpiTransfer
import Stm32f411.SpiPairing
import Stm32f411.BitMasks
import Stm32f411.DmaStreams
import Stm32f411.DmaConfigurations
import Stm32f411.DmaGuarantee
import Stm32f411.DmaFrames
import Stm32f411.DmaLegality
import Stm32f411.RccClock
import Stm32f411.RccTransients
import Stm32f411.RccSwitching
import Stm32f411.WordBlocks
import Stm32f411.TaskStacks
import Stm32f411.TaskRegistry
import Stm32f411.ContextSwitch
import Stm32f411.ContextSaves
import Stm32f411.ContextFrames
import Stm32f411.ContextInvariant
import Stm32f411.ContextPreservation
import Stm32f411.NearestInteger
import Stm32f411.UsartBaudrate
import Stm32f411.BitFields
import Stm32f411.GpioPins
import Stm32f411.GpioOutputs
import Stm32f411.SysTickSetup
import Stm32f411.TimedKernel
import Stm32f411.KernelTimer
import Stm32f411.TimerPeriods
import Stm32f411.TimedDelays
import Stm32f411.FaultCapture
import Stm32f411.PriorityFixpoint
import Stm32f411.TruncatedQuotient
import Stm32f411.I2cInit
import Stm32f411.ClockReadback
