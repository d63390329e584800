import NightBridge.Native.Atomicity
import NightBridge.Daemon.Isolation
import NightBridge.Daemon.Relay
import NightBridge.Daemon.Trusted
import NightBridge.Rendezvous.Notifications
import NightBridge.Rendezvous.Pruning
import NightBridge.Rendezvous.Answers
import NightBridge.LocalSend.Legacy
import NightBridge.LocalSend.Sending
import NightBridge.Tls.Crashes
import NightBridge.Api.Events
import NightBridge.Api.Pins
import NightBridge.Daemon.Agreement
import NightBridge.Native.Promises
import NightBridge.Native.StunMessages
import NightBridge.Native.Pairing
import NightBridge.Api.Discovery
import NightBridge.Tui.Dashboard
import NightBridge.Daemon.Listing
import NightBridge.Daemon.Hooks
import NightBridge.Native.DialOutcome
import NightBridge.Core.ApiToken
import NightBridge.WebUi.Stream
import NightBridge.WebUi.Refresh
