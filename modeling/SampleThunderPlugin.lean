import SampleThunderPlugin.LabelledRuns
import SampleThunderPlugin.SamplePluginImplementation
import SampleThunderPlugin.NotificationThreads
import SampleThunderPlugin.ReentrantRaise
import SampleThunderPlugin.CallbackDeadlock
import SampleThunderPlugin.ComRpcServer
import SampleThunderPlugin.SamplePlugin
import SampleThunderPlugin.PluginLifecycle
import SampleThunderPlugin.UndisturbedCalls
import SampleThunderPlugin.LifecycleHoldings
import SampleThunderPlugin.JsonRpcBridge
import SampleThunderPlugin.SamplePluginLink
import SampleThunderPlugin.SubscriptionAgreement
import SampleThunderPlugin.LinkThreads
import SampleThunderPlugin.LostConnections
import SampleThunderPlugin.RaisedEvents
import SampleThunderPlugin.Greetings
import SampleThunderPlugin.ImplementationLifetime
import SampleThunderPlugin.LinkEstablishment
import SampleThunderPlugin.LinkLifetime
import SampleThunderPlugin.ComRpcFixture
import SampleThunderPlugin.ServerAnnouncements
import SampleThunderPlugin.Linearization
import SampleThunderPlugin.NotificationHistory
import SampleThunderPlugin.NotificationProgress
import SampleThunderPlugin.LifecycleRefinement
import SampleThunderPlugin.ClientReferences
import SampleThunderPlugin.LifecycleProgress
import SampleThunderPlugin.LinkDepartures
import SampleThunderPlugin.LinkWaiters
import SampleThunderPlugin.SubscriptionThreads
import SampleThunderPlugin.GreetingEvents
import SampleThunderPlugin.SubscriptionProgress
import SampleThunderPlugin.JsonRpcFixture
import SampleThunderPlugin.RaiseTurns
