import SoundScenes.Json.Record
import SoundScenes.Proofs.Json.Reading

/-!
# Written records are read

A record is written as an object that gives its fields in order and may leave some of them out. It
is read back if every field that is given is read back, and none that is required is left out.

* `Fits` — entries that give fields in order, and what becomes of a record by them;
* `Record.reads` — an object of such entries is read as the record that they make;
* `Record.read_error` — it is not read if one of the fields is not.
-/

namespace SoundScenes

variable {α β : Type} {room : Nat} {f : Field α} {fs : List (Field α)} {v : Json}
  {es : List (String × Json)} {a b : α}

/-- Entries that give fields of a record in order, or leave them out where that is allowed, and make
of the record `a` the record `b`. -/
inductive Fits (room : Nat) : List (Field α) → List (String × Json) → α → α → Prop
  | nil (a : α) : Fits room [] [] a a
  | given {f : Field α} {fs : List (Field α)} {v : Json} {es : List (String × Json)} {a b : α}
      {change : α → α} (h : f.read room v.document = .ok change)
      (hrest : Fits room fs es (change a) b) : Fits room (f :: fs) ((f.name, v) :: es) a b
  | absent {f : Field α} {fs : List (Field α)} {es : List (String × Json)} {a b : α}
      (h : f.presence ≠ .required) (hrest : Fits room fs es a b) : Fits room (f :: fs) es a b

namespace Reader.Reads

/-- A field is set to what is read for it. -/
theorem put {name : String} {presence : Presence} {r : Reader β} {x : β} (h : r.Reads room v x)
    (put : β → α → α) : (Field.of name presence r put).read room v.document = .ok (put x) := by
  show (r room v.document).map put = _
  rw [h]
  rfl

/-- Another name changes nothing of it. -/
theorem put_orNamed {name other : String} {presence : Presence} {r : Reader β} {x : β}
    (h : r.Reads room v x) (put : β → α → α) :
    ((Field.of name presence r put).orNamed other).read room v.document = .ok (put x) := by
  show (Field.of name presence r put).read room v.document = _
  exact h.put put

end Reader.Reads

namespace Fits

theorem append {gs : List (Field α)} {es' : List (String × Json)} {c : α}
    (h : Fits room fs es a b) (h' : Fits room gs es' b c) :
    Fits room (fs ++ gs) (es ++ es') a c := by
  induction h with
  | nil a => exact h'
  | given hread _ ih => exact .given hread (ih h')
  | absent hpresence _ ih => exact .absent hpresence (ih h')

/-- A field that is left out where it has no value. -/
theorem optional {name : String} {presence : Presence} {r : Reader β} {put : Option β → α → α}
    {o : Option β} {write : β → Json} (hpresence : presence ≠ .required)
    (hnone : o = none → put none a = a)
    (hread : ∀ x, o = some x → r.Reads room (write x) x) (hwrite : ∀ x, write x ≠ .null)
    (hrest : Fits room fs es (put o a) b) :
    Fits room (.of name presence (.option r) put :: fs)
      (Json.optionalEntry name (o.map write) ++ es) a b := by
  cases o with
  | none =>
    rw [hnone rfl] at hrest
    exact .absent hpresence hrest
  | some x => exact .given (((hread x rfl).option (hwrite x)).put put) hrest

end Fits

namespace Record

variable {r : Record α}

/-- No field answers to the name of a later one. -/
def Distinct (r : Record α) : Prop := r.fields.Pairwise fun f g => f.answersTo g.name = false

instance (r : Record α) : Decidable r.Distinct :=
  inferInstanceAs (Decidable (r.fields.Pairwise fun f g => f.answersTo g.name = false))

theorem answersTo_name (f : Field α) : f.answersTo f.name = true := decide_eq_true (.inl rfl)

/-- A field is found by its name. -/
theorem Distinct.find? (h : r.Distinct) {before after : List (Field α)}
    (hfields : r.fields = before ++ f :: after) :
    r.fields.find? (·.answersTo f.name) = some f := by
  rw [Distinct, hfields, List.pairwise_append] at h
  rw [hfields, List.find?_eq_some_iff_append]
  refine ⟨answersTo_name f, before, after, rfl, fun g hg => ?_⟩
  rw [h.2.2 g hg f List.mem_cons_self]
  rfl

theorem Distinct.name_not_mem (h : r.Distinct) {before after : List (Field α)}
    (hfields : r.fields = before ++ f :: after) : f.name ∉ before.map (·.name) := by
  rw [Distinct, hfields, List.pairwise_append] at h
  intro hmem
  obtain ⟨g, hg, hname⟩ := List.mem_map.mp hmem
  have hno := h.2.2 g hg f List.mem_cons_self
  rw [← hname, answersTo_name] at hno
  cases hno

/-- A field that has not been given yet is read from its entry. -/
theorem readEntries_cons {seen : List String} (hfind : r.fields.find? (·.answersTo f.name) = some f)
    (hseen : f.name ∉ seen) (v : Json) (es : List (Document × Document)) (a : α) :
    r.readEntries room ((.string (Json.pieces f.name) none, v.document) :: es) a seen =
      f.read room v.document >>= fun change =>
        r.readEntries room es (change a) (f.name :: seen) := by
  rw [readEntries, Reader.key_pieces]
  simp only [bind, Except.bind, hfind, if_neg hseen]

/-- Entries that give fields in order are read one after another. -/
theorem readEntries_of_fits (hr : r.Distinct) (h : Fits room fs es a b)
    (before after : List (Field α)) (hfields : r.fields = before ++ (fs ++ after))
    (seen : List String) (hseen : ∀ name ∈ seen, name ∈ before.map (·.name))
    (rest : List (String × Json)) :
    ∃ seen', r.readEntries room (Json.documentEntries (es ++ rest)) a seen =
        r.readEntries room (Json.documentEntries rest) b seen' ∧
      (∀ name ∈ seen, name ∈ seen') ∧
      (∀ name ∈ seen', name ∈ (before ++ fs).map (·.name)) ∧
      ∀ f ∈ fs, f.presence = .required → f.name ∈ seen' := by
  induction h generalizing before seen with
  | nil a =>
    exact ⟨seen, rfl, fun _ h => h, by rwa [List.append_nil], fun f hf => by cases hf⟩
  | @given f fs v es a b change hread _ ih =>
    have hfields' : r.fields = (before ++ [f]) ++ (fs ++ after) := by
      rw [hfields, List.append_assoc, List.cons_append]
      rfl
    have hnotseen : f.name ∉ seen := fun hmem => hr.name_not_mem hfields (hseen _ hmem)
    have hseen' : ∀ name ∈ f.name :: seen, name ∈ (before ++ [f]).map (·.name) := by
      intro name hname
      rw [List.map_append, List.mem_append]
      rcases List.mem_cons.mp hname with rfl | hname
      · exact .inr (List.mem_singleton.mpr rfl)
      · exact .inl (hseen name hname)
    obtain ⟨seen', hread', hold, hnames, hrequired⟩ := ih _ hfields' _ hseen'
    refine ⟨seen', ?_, fun name hname => hold name (List.mem_cons_of_mem _ hname), ?_, ?_⟩
    · rw [List.cons_append, Json.documentEntries,
        readEntries_cons (hr.find? hfields) hnotseen, hread]
      exact hread'
    · intro name hname
      simpa using hnames name hname
    · intro g hg hrequire
      rcases List.mem_cons.mp hg with rfl | hg
      · exact hold _ List.mem_cons_self
      · exact hrequired g hg hrequire
  | @absent f fs es a b hpresence _ ih =>
    have hfields' : r.fields = (before ++ [f]) ++ (fs ++ after) := by
      rw [hfields, List.append_assoc, List.cons_append]
      rfl
    have hseen' : ∀ name ∈ seen, name ∈ (before ++ [f]).map (·.name) := by
      intro name hname
      rw [List.map_append, List.mem_append]
      exact .inl (hseen name hname)
    obtain ⟨seen', hread', hold, hnames, hrequired⟩ := ih _ hfields' _ hseen'
    refine ⟨seen', hread', hold, fun name hname => by simpa using hnames name hname, ?_⟩
    intro g hg hrequire
    rcases List.mem_cons.mp hg with rfl | hg
    · exact absurd hrequire hpresence
    · exact hrequired g hg hrequire

/-- An object that gives fields in order is read as the record that they make. -/
theorem reads (hr : r.Distinct) (h : Fits room r.fields es r.blank a) :
    r.read.Reads (room + 1) (.object es) a := by
  obtain ⟨seen, hread, -, -, hrequired⟩ := readEntries_of_fits hr h [] []
    (by rw [List.append_nil, List.nil_append]) [] (by simp) []
  have hmissing : r.missing seen = none := by
    rw [missing, Option.map_eq_none_iff, List.find?_eq_none]
    intro f hf hmissing
    obtain ⟨hrequire, hnot⟩ := of_decide_eq_true hmissing
    exact hnot (hrequired f hf hrequire)
  rw [List.append_nil] at hread
  show (r.readEntries room (Json.documentEntries es) r.blank [] >>= _) = _
  have hnil : r.readEntries room (Json.documentEntries []) a seen = .ok (a, seen) := rfl
  have hend : Reader.sound (Document.ending () none) = .ok () := rfl
  rw [hread, hnil]
  simp only [bind, Except.bind, hend, hmissing]
  rfl

/-- An object is not read if one of its fields is not. -/
theorem read_error (hr : r.Distinct) (before after : List (Field α))
    {rest : List (String × Json)} {e : ReadError} (hfields : r.fields = before ++ f :: after)
    (h : Fits room before es r.blank a) (hread : f.read room v.document = .error e) :
    r.read (room + 1) (Json.document (.object (es ++ (f.name, v) :: rest))) = .error e := by
  obtain ⟨seen, hentries, -, hnames, -⟩ := readEntries_of_fits hr h [] (f :: after)
    (by rw [List.nil_append, hfields]) [] (by simp) ((f.name, v) :: rest)
  have hnotseen : f.name ∉ seen := fun hmem => hr.name_not_mem hfields (by
    simpa using hnames _ hmem)
  show (r.readEntries room (Json.documentEntries (es ++ (f.name, v) :: rest)) r.blank [] >>= _) = _
  rw [hentries, Json.documentEntries, readEntries_cons (hr.find? hfields) hnotseen, hread]
  rfl

end Record

end SoundScenes
