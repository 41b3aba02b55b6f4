import EntityStore.Settings.Reader
import EntityStore.Proofs.Scene.Transparency
import EntityStore.Proofs.Scene.Unloaded
import EntityStore.Proofs.Scene.Releases
import EntityStore.Proofs.Scene.Trailing
import EntityStore.Proofs.Block.Simulation
import EntityStore.Proofs.Layout.Packing
import EntityStore.Proofs.Scene.Filling
import EntityStore.Proofs.Scene.Lengths
import EntityStore.Proofs.Scene.Spawning
import EntityStore.Proofs.Scene.Exchange
import EntityStore.Proofs.Scene.Unseen
import EntityStore.Proofs.Pool.Shelf
import EntityStore.Proofs.Slab.Loans
import EntityStore.Proofs.Store.Lookups
import EntityStore.Proofs.Layout.Limits
import EntityStore.Signature.Words
import EntityStore.Proofs.Signature.Words
import EntityStore.Block.Split.Operation
import EntityStore.Proofs.Signature.Listing
import EntityStore.Proofs.Block.Opened
import EntityStore.Proofs.Block.Views
import EntityStore.Component.Registry.Operation
import EntityStore.Proofs.Registry.Table
