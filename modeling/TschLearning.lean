import TschLearning.Proofs.Binary64.Sign
import TschLearning.Testbed.Components
import TschLearning.Testbed.States
import TschLearning.Testbed.Signature
import TschLearning.Proofs.Scheduler.Lessons
import TschLearning.Proofs.Scenario.DeployModes
import TschLearning.Proofs.Deployer.Refusals
import TschLearning.Proofs.Deployer.Drift
import TschLearning.Proofs.Scenario.Waits
import TschLearning.Proofs.Scenario.AddsUp
import TschLearning.Proofs.Deployer.AllOrNothing
import TschLearning.Proofs.Scheduler.Accord
import TschLearning.Proofs.Network.Conserved
import TschLearning.Proofs.Scheduler.Cadence
import TschLearning.Proofs.Scenario.Headcount
import TschLearning.Proofs.Testbed.Bookkeeping
import TschLearning.Proofs.Learning.Applied
import TschLearning.Proofs.Scheduler.Isolated
import TschLearning.Proofs.Deployer.Capacity
import TschLearning.Proofs.Deployer.Halfway
import TschLearning.Proofs.Learning.Bounded
import TschLearning.Proofs.Learning.Compared
import TschLearning.Proofs.Learning.SlotValues
import TschLearning.Proofs.Testbed.Devices
import TschLearning.Proofs.Learning.Revalidated
import TschLearning.Proofs.Scheduler.OneLink
import TschLearning.Proofs.Testbed.Splitting
import TschLearning.Proofs.Notifier
