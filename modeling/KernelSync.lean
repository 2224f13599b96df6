import KernelSync.Machine
import KernelSync.Nesting
import KernelSync.Simulation.Run
import KernelSync.Proofs.DeadlockDetection
import KernelSync.Proofs.DonorBookkeeping
import KernelSync.Proofs.MutualExclusion
import KernelSync.Proofs.NoLostWakeUp
import KernelSync.Proofs.Urgency
import KernelSync.Proofs.Conservation
import KernelSync.Proofs.Signals
import KernelSync.Proofs.PermitBalance
import KernelSync.Proofs.WakeOrder
import KernelSync.Proofs.Sections
import KernelSync.Proofs.FoundHandles
import KernelSync.Proofs.Outcomes
import KernelSync.Proofs.WaitChain
import KernelSync.Proofs.Recomputation
import KernelSync.Proofs.DispatchOrder
import KernelSync.Proofs.Endings
import KernelSync.Proofs.Joins
import KernelSync.Proofs.Broadcasts
import KernelSync.Proofs.Interrupts
import KernelSync.Proofs.RefusedCalls
import KernelSync.Proofs.Overlaps
import KernelSync.Proofs.Reentrancy
import KernelSync.Proofs.FeedbackMode
import KernelSync.Proofs.LeftNotes
import KernelSync.Proofs.DonorUpdates
