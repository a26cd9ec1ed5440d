import SoundScenes.Scene.Histogram
import SoundScenes.Config
import SoundScenes.Bounded

/-!
# The rule for scenes

What a complete scene must hold, and what a beginning of a scene must still be able to reach. Both
look only at the histogram and at the number of places that are left.

* `SceneRule.prune?` — why a beginning is given up, if it is;
* `SceneRule.reject?` — why a complete scene is refused, if it is.

A beginning that is given up cannot be completed, with one exception: a family on its way to the
quota is taken to need as many sounds as one that is absent.
-/

namespace SoundScenes

/-- Why the search gives up a beginning of a scene. -/
inductive PruneReason where
  /-- There are fewer places left than families missing. -/
  | missingFamilies
  /-- There are fewer places left than families missing at the quota. -/
  | quotaFamiliesUnreachable
  /-- There are fewer places left than sounds missing at the quota. -/
  | quotaObjectsUnreachable
  /-- Every sound is taken. -/
  | exhaustedCandidates
  deriving DecidableEq, Repr

namespace PruneReason

/-- All reasons, in the order in which documents list them. -/
def all : List PruneReason :=
  [missingFamilies, quotaFamiliesUnreachable, quotaObjectsUnreachable, exhaustedCandidates]

def name : PruneReason → String
  | missingFamilies => "missing_families"
  | quotaFamiliesUnreachable => "quota_families_unreachable"
  | quotaObjectsUnreachable => "quota_objects_unreachable"
  | exhaustedCandidates => "exhausted_candidates"

/-- All reasons by name. -/
def cases : List (String × PruneReason) := all.map fun r => (r.name, r)

theorem lookup_cases (r : PruneReason) : cases.lookup r.name = some r := by
  cases r <;> rfl

/-- The place of a reason among all. -/
def rank : PruneReason → Nat
  | missingFamilies => 0
  | quotaFamiliesUnreachable => 1
  | quotaObjectsUnreachable => 2
  | exhaustedCandidates => 3

theorem rank_inj {r s : PruneReason} (h : r.rank = s.rank) : r = s := by
  cases r <;> cases s <;> simp_all [rank]

instance : Ord PruneReason := ⟨fun r s => compare r.rank s.rank⟩

instance : Std.TransOrd PruneReason where
  eq_swap := Std.OrientedOrd.eq_swap (α := Nat)
  isLE_trans := Std.TransOrd.isLE_trans (α := Nat)

instance : Std.LawfulEqOrd PruneReason where
  eq_of_compare h := rank_inj (Std.LawfulEqOrd.eq_of_compare h)

end PruneReason

/-- Why a complete scene is refused. -/
inductive RejectReason where
  | tooFewFamilies
  | quotaNotMet
  deriving DecidableEq, Repr

def RejectReason.name : RejectReason → String
  | tooFewFamilies => "too_few_families"
  | quotaNotMet => "quota_not_met"

/-- The rule for scenes of a length. -/
structure SceneRule where
  constraints : Constraints
  /-- The number of sounds in a scene. -/
  length : Nat
  deriving DecidableEq, Repr

namespace SceneRule

/-- The histogram of an empty scene. -/
def histogram (rule : SceneRule) (families : Nat) : Histogram :=
  .empty families rule.constraints.quota

/-- Why a beginning with its last sound at a depth is given up. The first sound is at depth zero. -/
def prune? (rule : SceneRule) (h : Histogram) (depth : Nat) : Option PruneReason :=
  let places := rule.length - (depth + 1)
  let missing := rule.constraints.minQuotaFamilies - h.meeting
  if places < rule.constraints.minFamilies - h.distinct then some .missingFamilies
  else if places < missing then some .quotaFamiliesUnreachable
  else if places < boundedMul missing rule.constraints.quota then some .quotaObjectsUnreachable
  else none

/-- Why a complete scene is refused. -/
def reject? (rule : SceneRule) (h : Histogram) : Option RejectReason :=
  if h.distinct < rule.constraints.minFamilies then some .tooFewFamilies
  else if h.meeting < rule.constraints.minQuotaFamilies then some .quotaNotMet
  else none

/-- `prune?` for a beginning itself. -/
def pruneScene? (rule : SceneRule) (catalog : Catalog) (scene : List Nat) (depth : Nat) :
    Except CatalogError (Option PruneReason) := do
  let h ← Histogram.ofScene catalog scene rule.constraints.quota
  return rule.prune? h depth

/-- `reject?` for a scene itself. -/
def rejectScene? (rule : SceneRule) (catalog : Catalog) (scene : List Nat) :
    Except CatalogError (Option RejectReason) := do
  let h ← Histogram.ofScene catalog scene rule.constraints.quota
  return rule.reject? h

end SceneRule

end SoundScenes
