import Settlement.Experiment.Run
import Settlement.Main
import Settlement.Report
import Settlement.Service.Reply
import Settlement.Proofs.Outcome
import Settlement.Proofs.Catalog
import Settlement.Proofs.Simulation
import Settlement.Proofs.Exact.Scalar
import Settlement.Proofs.Table
import Settlement.Proofs.World.Run
import Settlement.Proofs.Exact.Market
import Settlement.Proofs.Exact.Workforce
import Settlement.Proofs.Exact.Production
import Settlement.Proofs.Exact.Renewal
import Settlement.Proofs.Exact.Tick
import Settlement.Proofs.Exact.Run
import Settlement.Proofs.Exact.Bounds
import Settlement.Proofs.Exact.Safety
import Settlement.Proofs.World.Independence
import Settlement.Proofs.Exact.Consumption
import Settlement.Proofs.Session
import Settlement.Proofs.Exact.Scaling
import Settlement.Proofs.World.Scaling
import Settlement.Proofs.Exact.Reordering
import Settlement.Proofs.Exact.Scarcity
import Settlement.Proofs.World.Memory
import Settlement.Proofs.World.Idle
import Settlement.Proofs.Exact.Inert
import Settlement.Proofs.Exact.Overstaffing
import Settlement.Proofs.World.Interrupted
import Settlement.Proofs.Recorder
import Settlement.Proofs.Attempt
import Settlement.Proofs.Exact.LaborFloor
import Settlement.Proofs.Reading
import Settlement.Proofs.Config.World
import Settlement.Proofs.Session.Requests
import Settlement.Proofs.Service
import Settlement.Proofs.Session.Isolation
import Settlement.Proofs.Session.LifeCycle
import Settlement.Proofs.Exact.Pricing
import Settlement.Proofs.Exact.Extinction
import Settlement.Proofs.Stopping
import Settlement.Proofs.World.Failure
import Settlement.Proofs.Session.Failure
import Settlement.Proofs.World.Within
import Settlement.Proofs.Binary64
import Settlement.Proofs.World.Finite
import Settlement.Proofs.Exact.Accounting
import Settlement.Proofs.World.Rewriting
import Settlement.Proofs.Recorder.Export
import Settlement.Proofs.Config.RoundTrip
import Settlement.Proofs.Exact.Convergence
import Settlement.Proofs.OrderedMap
import Settlement.Proofs.Catalog.Check
import Settlement.Proofs.Catalog.RoundTrip
import Settlement.Proofs.Experiment
import Settlement.Proofs.Simulation.Schedule
import Settlement.Proofs.Exact.Dearness
import Settlement.Proofs.Exact.Regrowth
import Settlement.Proofs.Exact.Revival
import Settlement.Proofs.World.Seeding
import Settlement.Proofs.Config.Seeding
import Settlement.Proofs.Simulation.Years
import Settlement.Proofs.Experiment.Sweep
import Settlement.Proofs.Experiment.Summary
import Settlement.Proofs.Config.Diff
