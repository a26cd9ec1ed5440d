import SoundScenes.Proofs.Catalog.Sizes
import SoundScenes.Proofs.Search.Counts
import SoundScenes.Proofs.Text.ByteOrder
import SoundScenes.Report
import Mathlib.Algebra.BigOperators.Group.Finset.Sigma

/-!
# One order of families

A catalog numbers its families, its summary lists them by name, and a search counts its draws by
number. All of them are in the order of the names. So a report can put names to the draws by their
places alone.

* `Catalog.Indexes` — how a catalog numbers the families of some sounds;
* `Search.DrawsRecount.byFamily_eq_map` — the draws of families are counted in the order of names;
* `Catalog.ofSounds_indexes` — a catalog and its summary agree, and so do the draws that are told.
-/

namespace SoundScenes

/-! ## Sums -/

/-- What is counted for every number of a set is what is counted for the set. -/
theorem sum_countP {α : Type} (numbers : Finset Nat) (items : List α) (g : α → Option Nat) :
    ∑ x ∈ numbers, items.countP (fun a => g a = some x) =
      items.countP fun a => (g a).any (· ∈ numbers) := by
  induction items with
  | nil => exact Finset.sum_const_zero
  | cons a items ih =>
    simp only [List.countP_cons, Finset.sum_add_distrib, ih]
    congr 1
    cases g a with
    | none => simp
    | some y => simp

/-! ## Summaries and catalogs -/

namespace Summary

/-- A summary looks at the instruments alone. -/
theorem ofSounds_congr {sounds sounds' : List Sound}
    (h : sounds.map (·.instrument) = sounds'.map (·.instrument)) :
    ofSounds sounds = ofSounds sounds' := by
  have hnames (sounds : List Sound) : familyNames sounds =
      (sounds.map (·.instrument)).foldl (fun names name => insertName name names) [] := by
    rw [familyNames, List.foldl_map]
  have hlength : (ofSounds sounds).total = (ofSounds sounds').total := by
    show sounds.length = sounds'.length
    rw [← List.length_map (·.instrument), h, List.length_map]
  have hfamilies : (ofSounds sounds).families = (ofSounds sounds').families := by
    rw [families_ofSounds, families_ofSounds, hnames, hnames, h]
  exact (mk.injEq ..).mpr ⟨hlength, hfamilies⟩

end Summary

/-- How a catalog numbers the families of some sounds: it keeps the sounds in their order, the
families are numbered in the order of their names, and the summary of the sounds counts them by the
same numbers. -/
structure Catalog.Indexes (c : Catalog) (sounds : List Sound) : Prop where
  length_eq : c.sounds.length = sounds.length
  sound : ∀ i, c.sounds[i]? = sounds[i]?.map fun s : Sound => { s with id := i }
  increasing : c.families.Pairwise fun name name' => Text.bytes name < Text.bytes name'
  mem_families : ∀ name, name ∈ c.families ↔ ∃ s ∈ sounds, s.instrument = name
  /-- The family of a sound bears the name of its instrument. -/
  family : ∀ i (h : i < sounds.length),
    ∃ f, c.familyIndex i = .ok f ∧ c.families[f]? = some sounds[i].instrument
  summary_eq : c.summary = .ofSounds sounds
  entry : ∀ f, (Summary.ofSounds sounds).families[f]? =
    c.families[f]?.map fun name => FamilySize.mk name (c.familySize f)
  count : ∀ entry ∈ (Summary.ofSounds sounds).families,
    entry.sounds = sounds.countP fun s => s.instrument = entry.family
  total_eq : (Summary.ofSounds sounds).total = sounds.length
  sum_eq : ((Summary.ofSounds sounds).families.map (·.sounds)).foldr (· + ·) 0 =
    (Summary.ofSounds sounds).total

namespace Catalog

variable {c : Catalog} {sounds : List Sound}

theorem families_getElem?_familyOf (c : Catalog) (i : Nat) (h : i < c.sounds.length) :
    c.families[c.family i]? = some c.sounds[i].instrument := by
  obtain ⟨sound, hsound⟩ := exists_get h
  obtain ⟨-, hfamily⟩ := get_eq_ok hsound
  have hget : sound = c.sounds[i] := by
    rw [get, List.getElem?_eq_getElem h] at hsound
    exact (Except.ok.inj hsound).symm
  have hmem : c.sounds[i].instrument ∈ c.families := by
    rw [c.families_eq, mem_familyNames]
    exact List.mem_map_of_mem (List.getElem_mem h)
  rw [hfamily, hget, List.getElem?_eq_getElem (List.idxOf_lt_length_of_mem hmem),
    List.getElem_idxOf]

theorem indexes_of_sounds_eq (h : c.sounds = renumber sounds) : c.Indexes sounds := by
  have hinstruments : c.sounds.map (·.instrument) = sounds.map (·.instrument) := by
    rw [h, instruments_renumber]
  have hlength : c.sounds.length = sounds.length := by rw [h, length_renumber]
  have hsummary : c.summary = .ofSounds sounds := Summary.ofSounds_congr hinstruments
  constructor
  case length_eq => exact hlength
  case sound => exact fun i => h ▸ getElem?_renumber sounds i
  case increasing =>
    rw [c.families_eq]
    exact (sorted_familyNames c.sounds).imp Text.lt_iff_bytes_lt.mp
  case mem_families =>
    intro name
    rw [c.families_eq, mem_familyNames, hinstruments, List.mem_map]
  case family =>
    intro i hi
    have hi' : i < c.sounds.length := hlength ▸ hi
    have hinstrument : c.sounds[i].instrument = sounds[i].instrument := by
      have hmap := congrArg (·[i]?) hinstruments
      simp only [List.getElem?_map, List.getElem?_eq_getElem hi, List.getElem?_eq_getElem hi',
        Option.map_some] at hmap
      exact Option.some.inj hmap
    refine ⟨c.family i, ?_, hinstrument ▸ c.families_getElem?_familyOf i hi'⟩
    rw [familyIndex, familyOf_getElem? hi']
  case summary_eq => exact hsummary
  case entry =>
    intro f
    rw [← hsummary, summary, Summary.families_ofSounds, ← c.families_eq, List.getElem?_map]
    cases hf : c.families[f]? with
    | none => rfl
    | some name =>
      obtain ⟨hlt, rfl⟩ := List.getElem?_eq_some_iff.mp hf
      rw [Option.map_some, Option.map_some, familySize_eq hlt]
  case count =>
    intro entry hentry
    rw [Summary.sounds_of_mem sounds hentry, List.count, List.countP_map]
    rfl
  case total_eq => rfl
  case sum_eq => exact Summary.listed_ofSounds sounds

/-- The number of nodes that hold a sound of an instrument. -/
def instrumentHolders (c : Catalog) (t : Tree) (name : String) : Nat :=
  t.countNodes fun id =>
    ((t.node id).sound.bind fun sound => c.sounds[sound]?).any fun s => s.instrument = name

end Catalog

/-! ## Draws by name -/

namespace Search

variable {s : Search} {d : Draws} {nodes : Nat} {t : Tree}

/-- The nodes that hold a sound of a family are those that hold a sound of its instrument. -/
theorem familyHolders_eq (s : Search) (t : Tree) {f : Nat} (hf : f < s.catalog.families.length) :
    s.familyHolders t f = s.catalog.instrumentHolders t s.catalog.families[f] := by
  unfold familyHolders Tree.holders Tree.countNodes
  rw [sum_countP _ _ fun id => (t.node id).sound, Catalog.instrumentHolders, Tree.countNodes]
  refine List.countP_congr fun id _ => ?_
  cases (t.node id).sound with
  | none => exact Iff.rfl
  | some sound =>
    rw [Option.any_some, Option.bind_some, decide_eq_true_eq, Finset.mem_filter, Finset.mem_range]
    by_cases hsound : sound < s.catalog.sounds.length
    · obtain ⟨hlt, hname⟩ :=
        List.getElem?_eq_some_iff.mp (s.catalog.families_getElem?_familyOf sound hsound)
      rw [List.getElem?_eq_getElem hsound, Option.any_some, decide_eq_true_eq, ← hname,
        s.catalog.nodup_families.getElem_inj_iff]
      exact and_iff_right hsound
    · rw [List.getElem?_eq_none (Nat.le_of_not_lt hsound)]
      exact ⟨fun h => absurd h.1 hsound, fun h => by cases h⟩

/-- The draws of families are counted in the order of their names. -/
theorem DrawsRecount.byFamily_eq_map (h : s.DrawsRecount d nodes t) :
    d.byFamily = s.catalog.families.map (s.catalog.instrumentHolders t) := by
  rw [h.byFamily]
  refine List.ext_getElem (by simp [Catalog.familyCount]) fun f _ hf => ?_
  rw [List.getElem_map, List.getElem_map, List.getElem_range]
  exact familyHolders_eq s t _

/-- All draws are draws of some family. -/
theorem DrawsRecount.sum_byFamily (h : s.DrawsRecount d nodes t) :
    d.byFamily.foldr (· + ·) 0 = nodes := by
  rw [h.byFamily, foldr_map_eq_sum List.nodup_range, List.toFinset_range]
  unfold familyHolders
  rw [Finset.sum_fiberwise_of_maps_to, ← List.toFinset_range, ← foldr_map_eq_sum List.nodup_range,
    ← h.bySound, ← h.total]
  · rfl
  · intro sound hsound
    exact Finset.mem_range.mpr (Catalog.family_lt (Finset.mem_range.mp hsound))

theorem DrawsRecount.named_eq (h : s.DrawsRecount d nodes t) :
    d.named s.catalog.families = Tally.ofEntries
      (s.catalog.families.map fun name => (name, s.catalog.instrumentHolders t name)) := by
  rw [Draws.named, h.byFamily_eq_map, List.map_prod_left_eq_zip]

theorem nodup_keys (s : Search) (count : String → Nat) :
    ((s.catalog.families.map fun name => (name, count name)).map Prod.fst).Nodup := by
  rw [List.map_map]
  exact (List.map_id _).symm ▸ s.catalog.nodup_families

/-- The name of a family stands for the nodes that hold one of its sounds, and no other name for
anything. -/
theorem DrawsRecount.getElem?_named (h : s.DrawsRecount d nodes t) (name : String) :
    (d.named s.catalog.families)[name]? =
      if name ∈ s.catalog.families then some (s.catalog.instrumentHolders t name) else none := by
  rw [h.named_eq]
  split
  · next hmem =>
    rw [Tally.getElem?_ofEntries (nodup_keys s _)]
    exact List.mem_map_of_mem hmem
  · next hnot =>
    refine Option.eq_none_iff_forall_ne_some.mpr fun n hn => hnot ?_
    rw [Tally.getElem?_ofEntries (nodup_keys s _)] at hn
    obtain ⟨name', hname', heq⟩ := List.mem_map.mp hn
    exact (Prod.mk.inj heq).1 ▸ hname'

/-- The draws told by name are all draws. -/
theorem DrawsRecount.total_named (h : s.DrawsRecount d nodes t) :
    (d.named s.catalog.families).total = nodes := by
  rw [h.named_eq, Tally.total_ofEntries (nodup_keys s _), ← h.sum_byFamily, h.byFamily_eq_map,
    Tally.sum, List.foldr_map, List.foldr_map]

end Search

/-- **A catalog and its summary number families alike.** Of any sounds whose instruments are not
blank a catalog is made that keeps them in order and numbers their families in the order of the
names, as their summary does. So what a report tells about the draws of a search on it is right:
under every instrument stand the nodes that hold a sound of it, under nothing else stands anything,
and together they are all nodes that were made. -/
theorem Catalog.ofSounds_indexes {sounds : List Sound} (hne : sounds ≠ [])
    (hnamed : ∀ s ∈ sounds, Text.blank s.instrument = false) :
    ∃ c, Catalog.ofSounds sounds = .ok c ∧ c.Indexes sounds ∧
      ∀ (σ : Type) [RandomSource σ] (s : Search) (clock : Nat → Nat) (source : σ) (report : Report),
        s.catalog = c →
        let o := s.run clock source
        let told := ({ report with catalog := c.summary }.addStats o.stats).familyDraws
        (∀ name, told[name]? = if name ∈ sounds.map (·.instrument)
          then some (c.instrumentHolders o.tree name) else none) ∧
          told.total = o.stats.nodesCreated := by
  obtain ⟨c, hc, hsounds⟩ := exists_ofSounds hne hnamed
  have hindexes := indexes_of_sounds_eq hsounds
  refine ⟨c, hc, hindexes, fun σ _ s clock source report hs => ?_⟩
  subst hs
  obtain ⟨m, hm, htree, hstats⟩ := Search.exists_reachable_run s clock source
  have hdraws := hm.recounts.draws
  rw [← htree, ← hstats] at hdraws
  have hnames : s.catalog.summary.families.map (·.family) = s.catalog.families := by
    rw [summary, Summary.map_family_ofSounds, s.catalog.families_eq]
  intro o told
  have htold : told = o.stats.draws.named s.catalog.families := by
    rw [← hnames]
    rfl
  rw [htold]
  refine ⟨fun name => ?_, hdraws.total_named⟩
  rw [hdraws.getElem?_named]
  simp only [hindexes.mem_families name, List.mem_map]
  rfl

/-- A search for scenes of one sound, which may be any. -/
def windsSearch : Search := ⟨.winds, ⟨.none, 1⟩, 3, none, none, none⟩

/-- Sounds get their positions as identifiers, and the draws of both families are told by name. -/
theorem ofSounds_winds :
    let sounds : List Sound :=
      [.ofInstrument 7 "oboe", .ofInstrument 7 "flute", .ofInstrument 7 "oboe"]
    let o := windsSearch.run (fun _ => 0) (Pcg.ofSeed 7)
    let told := ({ Report.start .standard "" "" with
      catalog := Catalog.winds.summary }.addStats o.stats).familyDraws
    Catalog.ofSounds sounds = .ok .winds ∧ Catalog.winds.Indexes sounds ∧
      told["oboe"]? = some 2 ∧ told["horn"]? = none ∧ told.total = 3 := by
  intro sounds o told
  have hne : sounds ≠ [] := by decide
  have hnamed : ∀ s ∈ sounds, Text.blank s.instrument = false := by decide
  obtain ⟨c, hc, hindexes, hdraws⟩ := Catalog.ofSounds_indexes hne hnamed
  have hwinds : Catalog.ofSounds sounds = .ok .winds := rfl
  have hc : c = .winds := Except.ok.inj (hc.symm.trans hwinds)
  subst hc
  obtain ⟨hnamed, htotal⟩ := hdraws Pcg windsSearch (fun _ => 0) (Pcg.ofSeed 7)
    (Report.start .standard "" "") rfl
  refine ⟨hwinds, hindexes, ?_, ?_, ?_⟩
  · exact (hnamed "oboe").trans (by decide +kernel)
  · exact (hnamed "horn").trans (by decide +kernel)
  · exact htotal.trans (by decide +kernel)

end SoundScenes
