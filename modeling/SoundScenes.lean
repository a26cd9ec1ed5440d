import SoundScenes.Main
import SoundScenes.Scene.Check
import SoundScenes.Search.Explore
import SoundScenes.Proofs.Agreement
import SoundScenes.Proofs.Search.Limits
import SoundScenes.Proofs.Search.Recursion
import SoundScenes.Proofs.Search.Lawful
import SoundScenes.Proofs.Search.Scenes
import SoundScenes.Proofs.Search.Shape
import SoundScenes.Proofs.Search.Found
import SoundScenes.Proofs.Search.Counts
import SoundScenes.Proofs.Scene.Contents
import SoundScenes.Proofs.Command.Coherence
import SoundScenes.Proofs.Catalog.Bisection
import SoundScenes.Proofs.Catalog.Indexing
import SoundScenes.Proofs.Scene.Grouping
import SoundScenes.Proofs.Search.Tightening
import SoundScenes.Proofs.Search.Slots
import SoundScenes.Proofs.Catalog.Candidates
import SoundScenes.Proofs.Configs
import SoundScenes.Proofs.Scene.Acceptance
import SoundScenes.Proofs.Scene.Files
import SoundScenes.Proofs.Scene.Splits
import SoundScenes.Proofs.Scene.Changes
