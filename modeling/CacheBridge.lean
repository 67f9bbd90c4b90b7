import CacheBridge.Time
import CacheBridge.Text.Blank
import CacheBridge.Text.Shown
import CacheBridge.Table
import CacheBridge.Failure.Workbench
import CacheBridge.Settings
import CacheBridge.Level
import CacheBridge.Bridge.ToLegacy
import CacheBridge.Bridge.ToModern
import CacheBridge.Store.Lazy
import CacheBridge.Store.Timed
import CacheBridge.Double.Modern
import CacheBridge.Double.Legacy
import CacheBridge.Watch.Spy
import CacheBridge.EventLoop
import CacheBridge.Session.Stacks
import CacheBridge.Session.Scopes
import CacheBridge.Session.Shutdowns
import CacheBridge.Showcase
import CacheBridge.Main
import CacheBridge.Proofs.Tower
import CacheBridge.Proofs.Service
import CacheBridge.Proofs.Passage
import CacheBridge.Proofs.Transparency
import CacheBridge.Proofs.BatchRouting
import CacheBridge.Proofs.ShutdownOrder
import CacheBridge.Proofs.OneContract
import CacheBridge.Proofs.Bystanders
import CacheBridge.Proofs.Callers
import CacheBridge.Proofs.Isolation
import CacheBridge.Proofs.Lineage
import CacheBridge.Proofs.ScopeHistory
import CacheBridge.Proofs.ShutdownLatency
import CacheBridge.Proofs.TtlRouting
import CacheBridge.Proofs.Provenance
import CacheBridge.Proofs.ConcurrentCloses
import CacheBridge.Proofs.PollSchedule
import CacheBridge.Proofs.CloseSignal
import CacheBridge.Proofs.PromptExpiry
import CacheBridge.Proofs.DefaultTtl
import CacheBridge.Proofs.BatchItems
import CacheBridge.Proofs.Vigils
import CacheBridge.Proofs.NumberGrammar
import CacheBridge.Proofs.Wrapping
import CacheBridge.Proofs.SignalWaits
import CacheBridge.Proofs.PartialBatch
