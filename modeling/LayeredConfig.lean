import LayeredConfig.Files.Tree
import LayeredConfig.Trigger.Timeline
import LayeredConfig.Main
import LayeredConfig.Proofs.Config.History
import LayeredConfig.Proofs.Config.Resolution
import LayeredConfig.Proofs.Delivery.Trace
import LayeredConfig.Proofs.Delivery.Chain
import LayeredConfig.Proofs.Bag.Writes
import LayeredConfig.Proofs.Config.Overrides
import LayeredConfig.Proofs.Factory.Get
import LayeredConfig.Proofs.Factory.Keeping
import LayeredConfig.Proofs.Bag.Paths
import LayeredConfig.Proofs.Factory.Ids
import LayeredConfig.Proofs.Source.Construction
import LayeredConfig.Proofs.Kernel.Retry
import LayeredConfig.Proofs.Config.Persistence
import LayeredConfig.Proofs.Config.Registration
import LayeredConfig.Proofs.Config.Refusals
import LayeredConfig.Proofs.Delivery.Ending
import LayeredConfig.Proofs.Source.Steady
import LayeredConfig.Proofs.Loader.Turns
import LayeredConfig.Proofs.Loader.Load
import LayeredConfig.Proofs.PubSub.Holdings
import LayeredConfig.Proofs.Bag.Json
import LayeredConfig.Proofs.Json.Reading
import LayeredConfig.Proofs.Json.RoundTrip
import LayeredConfig.Proofs.Loader.Declarations
import LayeredConfig.Proofs.Yaml.RoundTrip
import LayeredConfig.Proofs.Source.Variables
import LayeredConfig.Proofs.Trigger.Clock
import LayeredConfig.Proofs.Loader.Agreement
import LayeredConfig.Proofs.Json.Literals
import LayeredConfig.Proofs.Bag.Changes
import LayeredConfig.Proofs.Bag.Grouping
import LayeredConfig.Proofs.Bag.Documents
import LayeredConfig.Proofs.Dotenv.Comments
import LayeredConfig.Proofs.Log.Levels
import LayeredConfig.Proofs.Log.Signals
import LayeredConfig.Proofs.Kernel.Boot
import LayeredConfig.Proofs.Source.Stages
import LayeredConfig.Proofs.Bag.IntegerView
import LayeredConfig.Proofs.Trigger.Schedule
