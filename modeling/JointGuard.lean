import JointGuard.Config.Reading
import JointGuard.Registry.Session
import JointGuard.Proofs.Association
import JointGuard.Proofs.Screening
import JointGuard.Proofs.Floating.Rounding
import JointGuard.Proofs.Floating.Unpacked
import JointGuard.Proofs.Floating.Packing
import JointGuard.Proofs.Floating.Value
import JointGuard.Proofs.Floating.Arithmetic
import JointGuard.Proofs.Floating.Weight
import JointGuard.Proofs.Floating.Opposite
import JointGuard.Proofs.Decimal.Bits
import JointGuard.Proofs.Decimal.ReadsBack
import JointGuard.Proofs.Decimal.Texts
import JointGuard.Proofs.Messages
import JointGuard.Proofs.Text.LastBoundary
import JointGuard.Proofs.Joint.Rosters
import JointGuard.Proofs.Joint.Seconds
import JointGuard.Proofs.Config.Acceptance
import JointGuard.Proofs.Config.Checking
import JointGuard.Proofs.Config.Rules
import JointGuard.Proofs.Enforce.Saturation
import JointGuard.Proofs.Enforce.Clamp
import JointGuard.Proofs.Enforce.Projection
import JointGuard.Proofs.Enforce.Pull
import JointGuard.Proofs.Enforce.Reach
import JointGuard.Proofs.Enforce.HardBand
import JointGuard.Proofs.Enforce.VelocityReach
import JointGuard.Proofs.Enforce.FreeMotion
import JointGuard.Proofs.Enforce.EffortBand
import JointGuard.Proofs.Enforce.ClosedLoop
import JointGuard.Proofs.Enforce.CommandBounds
import JointGuard.Proofs.Enforce.Undetermined
import JointGuard.Proofs.Registry.Listing
import JointGuard.Proofs.Config.Lookup
import JointGuard.Proofs.Registry.Registration
import JointGuard.Proofs.Registry.Tick
import JointGuard.Proofs.Registry.Repetition
import JointGuard.Proofs.Registry.ByName
import JointGuard.Proofs.Registry.SetUp
import JointGuard.Proofs.Toml.DistinctKeys
import JointGuard.Proofs.Config.Fields
import JointGuard.Proofs.Config.Records
import JointGuard.Proofs.Config.Grammar
import JointGuard.Proofs.Config.Documents
import JointGuard.Proofs.Config.Notations
import JointGuard.Proofs.Config.Staging
import JointGuard.Proofs.Enforce.Braking
import JointGuard.Proofs.Enforce.Monotone
import JointGuard.Proofs.Enforce.Mirror
import JointGuard.Proofs.Enforce.Shrinking
import JointGuard.Proofs.Registry.Tightest
