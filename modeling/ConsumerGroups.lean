import ConsumerGroups.Table
import ConsumerGroups.Check
import ConsumerGroups.Text.Quoted
import ConsumerGroups.Time
import ConsumerGroups.Labels
import ConsumerGroups.Json.Literal
import ConsumerGroups.Json.Number
import ConsumerGroups.Json.Decode
import ConsumerGroups.Json.Value
import ConsumerGroups.Settings
import ConsumerGroups.Subscription.Json
import ConsumerGroups.Group
import ConsumerGroups.Registry.Register
import ConsumerGroups.Registry.Leave
import ConsumerGroups.Registry.Sweep
import ConsumerGroups.Registry.Request
import ConsumerGroups.Listener
import ConsumerGroups.Timer
import ConsumerGroups.Scenario.Run
import ConsumerGroups.Proofs.Aside
import ConsumerGroups.Proofs.Records
import ConsumerGroups.Proofs.Steps
import ConsumerGroups.Proofs.WellFormed
import ConsumerGroups.Proofs.Served
import ConsumerGroups.Proofs.Soundness
import ConsumerGroups.Proofs.Settling
import ConsumerGroups.Proofs.Quiet
import ConsumerGroups.Proofs.History
import ConsumerGroups.Proofs.View
import ConsumerGroups.Proofs.Course
import ConsumerGroups.Proofs.Orderly
import ConsumerGroups.Proofs.Truthful
import ConsumerGroups.Proofs.Trailing
import ConsumerGroups.Proofs.Declared
import ConsumerGroups.Proofs.Lives
import ConsumerGroups.Proofs.Own
import ConsumerGroups.Proofs.Thorough
import ConsumerGroups.Proofs.Closings
import ConsumerGroups.Proofs.Isolation
import ConsumerGroups.Proofs.Tidings
import ConsumerGroups.Proofs.Treatment
import ConsumerGroups.Proofs.Fates
import ConsumerGroups.Proofs.Apart
import ConsumerGroups.Proofs.Wires
import ConsumerGroups.Proofs.Walks
import ConsumerGroups.Proofs.Retirement
import ConsumerGroups.Proofs.Commuting
import ConsumerGroups.Proofs.Declaring
import ConsumerGroups.Proofs.Changes
import ConsumerGroups.Proofs.Resting
import ConsumerGroups.Proofs.Repetition
import ConsumerGroups.Proofs.Uttering
import ConsumerGroups.Proofs.Retries
import ConsumerGroups.Proofs.Departures
import ConsumerGroups.Proofs.Sweeping
import ConsumerGroups.Proofs.Grammar
import ConsumerGroups.Proofs.Literals
import ConsumerGroups.Proofs.Numerals
import ConsumerGroups.Proofs.Parsing
import ConsumerGroups.Proofs.Writing
import ConsumerGroups.Proofs.Decoding
import ConsumerGroups.Proofs.SettingsText
import ConsumerGroups.Proofs.SubscriptionText
import ConsumerGroups.Proofs.Tags
import ConsumerGroups.Proofs.TagCodes
import ConsumerGroups.Proofs.Rejecting
import ConsumerGroups.Proofs.Fanout
import ConsumerGroups.Proofs.Spells
import ConsumerGroups.Proofs.Clockwork
import ConsumerGroups.Proofs.Instants
import ConsumerGroups.Proofs.Strikes
import ConsumerGroups.Proofs.Rhythm
