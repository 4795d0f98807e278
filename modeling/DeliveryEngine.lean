import DeliveryEngine.Unattended.JournalFile
import DeliveryEngine.Unattended.RunFence
import DeliveryEngine.Unattended.ResumeHolds
import DeliveryEngine.Unattended.RunEnds
import DeliveryEngine.Unattended.Accounts
import DeliveryEngine.Projector.Generate
import DeliveryEngine.Projector.Scalars
import DeliveryEngine.Unattended.Publish
import DeliveryEngine.Handoff.GateWords
import DeliveryEngine.Handoff.Deliverables
import DeliveryEngine.Handoff.CompiledRun
import DeliveryEngine.Handoff.PlanChange
import DeliveryEngine.Caching.Coherence
import DeliveryEngine.Formula.Resolve
import DeliveryEngine.Molecule.AttachRace
import DeliveryEngine.Dispatch.Cancel
import DeliveryEngine.Dispatch.DrainReservation
import DeliveryEngine.Convergence.Safety
import DeliveryEngine.Nudges.Leases
import DeliveryEngine.Orders.CronCatchup
import DeliveryEngine.Beads.Query
import DeliveryEngine.Events.TailScan
