import TieredPool.Main
import TieredPool.Session
import TieredPool.Config.Encode
import TieredPool.Proofs.Soundness
import TieredPool.Proofs.Availability
import TieredPool.Proofs.Words
import TieredPool.Proofs.Proportion
import TieredPool.Proofs.Invariant
import TieredPool.Proofs.Delivery
import TieredPool.Proofs.Readings
import TieredPool.Proofs.Downtime
import TieredPool.Proofs.Reordering
import TieredPool.Proofs.Registration
import TieredPool.Proofs.Accounting
import TieredPool.Proofs.Validation
import TieredPool.Proofs.Chronicle
import TieredPool.Proofs.Construction
import TieredPool.Proofs.Slots
import TieredPool.Proofs.Rotation
import TieredPool.Proofs.Reporting
import TieredPool.Proofs.Opening
import TieredPool.Proofs.HealthyTraffic
import TieredPool.Proofs.Charging
import TieredPool.Proofs.Conduct
import TieredPool.Proofs.Coherence
import TieredPool.Proofs.Windows
import TieredPool.Proofs.Detection
import TieredPool.Proofs.Period
import TieredPool.Proofs.Shift
import TieredPool.Proofs.Replay
import TieredPool.Proofs.Metering
import TieredPool.Proofs.Origin
import TieredPool.Proofs.Texts
import TieredPool.Proofs.Rules
import TieredPool.Proofs.Ratios
import TieredPool.Proofs.Joining
import TieredPool.Proofs.Removal
import TieredPool.Proofs.Integers
import TieredPool.Proofs.Delays
import TieredPool.Proofs.Timeline
import TieredPool.Proofs.Omissions
import TieredPool.Proofs.Picking
