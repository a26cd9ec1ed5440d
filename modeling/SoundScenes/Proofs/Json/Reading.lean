import SoundScenes.Json.Tagged
import SoundScenes.Proofs.Json.Written
import SoundScenes.Proofs.Results

/-!
# Written values are read

What readers make of documents that stand for values. As a text is scanned back to the document of
its value, this says what they make of written texts.

* `Reader.Reads` — what a reader makes of a written value;
* `Reader.run_pretty`, `Reader.Reads.run` — a text is read like the value that it was written from;
* `Reader.Reads.list`, `Reader.Reads.table` — containers are read item by item;
* `Tagged.reads_bare`, `Tagged.reads_holding` — tagged choices.
-/

namespace SoundScenes

namespace Reader

variable {α κ : Type} {r : Reader α} {room : Nat} {v : Json} {a : α}

/-- A reader makes `a` of a written value. -/
def Reads (r : Reader α) (room : Nat) (v : Json) (a : α) : Prop := r room v.document = .ok a

/-! ## Texts -/

theorem run_of_document {text : String} {d : Document} (h : Document.ofString text = (d, false)) :
    r.run text = r roomLimit d := by
  rw [run, h]
  show (r roomLimit d >>= pure) = _
  rw [bind_pure]

/-- A text is read like the document of the value that it was written from. -/
theorem run_pretty (r : Reader α) (v : Json) : r.run v.pretty = r roomLimit v.document :=
  run_of_document (Document.ofString_pretty v)

theorem run_compact (r : Reader α) (v : Json) : r.run v.compact = r roomLimit v.document :=
  run_of_document (Document.ofString_compact v)

/-- What is made of a value is made of either of its texts. -/
theorem Reads.run (h : r.Reads roomLimit v a) :
    ∀ text ∈ [v.pretty, v.compact], r.run text = .ok a := by
  intro text htext
  rcases List.mem_pair.mp htext with rfl | rfl
  · exact (run_pretty r v).trans h
  · exact (run_compact r v).trans h

/-! ## Values without parts -/

theorem reads_string (room : Nat) (s : String) : string.Reads room (.string s) s :=
  spelled_pieces s

theorem reads_bool (room : Nat) (b : Bool) : bool.Reads room (.bool b) b := rfl

theorem reads_integer {low high i : Int} (hlow : low ≤ i) (hhigh : i ≤ high)
    (hfits : -(UInt64.size : Int) ≤ 2 * i) (hfits' : i < UInt64.size) (expected : String) :
    (integer low high expected).Reads room (.number (.integer i)) i := by
  show (sound (Numeral.digits (.integer i)).value >>= _) = _
  rw [Numeral.value_digits hfits hfits']
  exact if_pos ⟨hlow, hhigh⟩

/-- A number below a bound is read back, as far as the bound does not exceed 64 bits. -/
theorem reads_natural {n bound : Nat} (h : n < bound) (hbound : bound ≤ UInt64.size)
    (expected : String) : (natural bound expected).Reads room (.nat n) n := by
  have hread : (integer 0 (bound - 1) expected).Reads room (.nat n) n :=
    reads_integer (by omega) (by omega) (by omega) (by omega) expected
  rw [Reads] at hread
  rw [Reads, natural, hread]
  rfl

theorem reads_size {n : Nat} (h : n < UInt64.size) : size.Reads room (.nat n) n :=
  reads_natural h (Nat.le_refl _) _

theorem reads_word64 {n : Nat} (h : n < UInt64.size) : word64.Reads room (.nat n) n :=
  reads_natural h (Nat.le_refl _) _

theorem reads_word32 {n : Nat} (h : n < UInt32.size) : word32.Reads room (.nat n) n :=
  reads_natural h (by decide) _

theorem reads_signed32 {i : Int} (hlow : -0x80000000 ≤ i) (hhigh : i ≤ 0x7fffffff) :
    signed32.Reads room (.number (.integer i)) i :=
  reads_integer hlow hhigh (by rw [show UInt64.size = 2 ^ 64 from rfl]; omega)
    (by rw [show UInt64.size = 2 ^ 64 from rfl]; omega) _

/-- One of several values is read by its name. -/
theorem reads_variant {cases : List (String × α)} {name : String} (h : cases.lookup name = some a) :
    (variant cases).Reads room (.string name) a := by
  show (spelled (Json.pieces name) none >>= _) = _
  rw [spelled_pieces]
  show choose cases name = _
  rw [choose, h]

/-- Whether a floating-point number is read back can be asked of its text alone. -/
theorem reads_float {x y : Float} (h : float.run (Json.float x).compact = .ok y) :
    float.Reads room (.float x) y := by
  rwa [run_compact] at h

theorem float_error_of_run {x : Float} {e : ReadError}
    (h : float.run (Json.float x).compact = .error e) :
    float room (Json.float x).document = .error e := by
  rwa [run_compact] at h

/-- What is no finite number is written as nothing, and nothing is no number. -/
theorem run_float_of_not_finite {x : Float} (h : x.isFinite = false) :
    float.run (Json.float x).compact = .error (.invalidType .null "f64") := by
  rw [run_compact, Json.float, h]
  rfl

/-- The text of a number is read as this number, to the last bit. -/
def ReadsBack (x : Float) : Prop := float.run (Json.float x).compact = .ok x

instance (x : Float) : Decidable (ReadsBack x) :=
  decidable_of_iff _ toOption_eq_some

/-- Only finite numbers are read back. -/
theorem ReadsBack.isFinite {x : Float} (h : ReadsBack x) : x.isFinite = true := by
  rw [ReadsBack] at h
  cases hfinite : x.isFinite with
  | true => rfl
  | false =>
    rw [run_float_of_not_finite hfinite] at h
    cases h

theorem nat_ne_null (n : Nat) : Json.nat n ≠ .null := by
  rintro ⟨⟩

/-! ## Options and lists -/

theorem Reads.option (h : r.Reads room v a) (hv : v ≠ .null) :
    (option r).Reads room v (some a) := by
  rw [Reads] at h
  cases v with
  | null => exact absurd rfl hv
  | _ =>
    rw [Reads, Reader.option, h]
    · rfl
    · intro h
      cases h
    · intro f g h
      cases h

/-- An array is read item by item. -/
theorem Reads.list {write : α → Json} {as : List α} (h : ∀ a ∈ as, r.Reads room (write a) a) :
    (list r).Reads (room + 1) (.array (as.map write)) as := by
  have hitems : ((as.map write).map Json.document).mapM (r room) = .ok as := by
    induction as with
    | nil => rfl
    | cons a as ih =>
      rw [List.map_cons, List.map_cons, List.mapM_cons, h a List.mem_cons_self]
      show (List.mapM (r room) _ >>= _) = _
      rw [ih fun a ha => h a (List.mem_cons_of_mem _ ha)]
      rfl
  rw [Reads, Json.document, Json.documentItems_eq_map]
  show (List.mapM (r room) _ >>= _) = _
  rw [hitems]
  rfl

/-! ## Tables -/

theorem key_pieces (s : String) : key (.string (Json.pieces s) none) = .ok s := spelled_pieces s

theorem keyAmong_pieces {cases : List (String × α)} {name : String}
    (h : cases.lookup name = some a) :
    keyAmong cases (.string (Json.pieces name) none) = .ok a := by
  rw [keyAmong, key_pieces]
  show choose cases name = _
  rw [choose, h]

/-- A count between quotes is read back. -/
theorem keySize_pieces {n : Nat} (h : n < UInt64.size) :
    keySize (.string (Json.pieces (toString n)) none) = .ok n := by
  have hdigits := isDigits_toDigits n
  have htext : Piece.plainText none (Json.pieces (toString n)) = Nat.toDigits 10 n ++ ['"'] := by
    have hlist : (toString n).toList = Nat.toDigits 10 n := Nat.toList_repr
    rw [Json.pieces, hlist, Piece.plainText_map_ofChar hdigits.2]
  have hscan : Token.scanNumber (Nat.toDigits 10 n ++ ['"']) =
      .ok (Numeral.digits (.integer n), ['"']) := by
    have hquote : EndsNumber ['"'] := Token.endsNumber_cons (by decide)
    have htoken := Token.scanNumber_text (Numeral.wellFormed_digits (.integer n)) hquote
    rwa [Numeral.text_digits] at htoken
  have hsize : size 0 (.number (Numeral.digits (.integer n))) = .ok n := reads_size h
  unfold keySize
  simp only [htext]
  cases hn : Nat.toDigits 10 n with
  | nil => exact absurd hn hdigits.1
  | cons c ds =>
    have hc : c.isDigit = true := hdigits.2 c (hn ▸ List.mem_cons_self)
    rw [hn] at hscan
    simp only [List.cons_append, List.head?_cons] at hscan ⊢
    rw [if_pos (Or.inl hc), hscan]
    show (size 0 (.number (Numeral.digits (.integer n))) >>= _) = _
    rw [hsize]
    rfl

/-- A table is read entry by entry. -/
theorem Reads.table {readKey : Document → Except ReadError κ} (writeKey : κ → String)
    {write : α → Json} {es : List (κ × α)}
    (hkey : ∀ e ∈ es, readKey (.string (Json.pieces (writeKey e.1)) none) = .ok e.1)
    (h : ∀ e ∈ es, r.Reads room (write e.2) e.2) :
    (table readKey r).Reads (room + 1)
      (.object (es.map fun e => (writeKey e.1, write e.2))) es := by
  have hentries : entriesWith readKey r room
      (Json.documentEntries (es.map fun e => (writeKey e.1, write e.2))) = .ok es := by
    induction es with
    | nil => rfl
    | cons e es ih =>
      rw [List.map_cons, Json.documentEntries, entriesWith, hkey e List.mem_cons_self]
      show (r room (write e.2).document >>= _) = _
      rw [h e List.mem_cons_self]
      show (entriesWith readKey r room _ >>= _) = _
      rw [ih (fun e he => hkey e (List.mem_cons_of_mem _ he))
        fun e he => h e (List.mem_cons_of_mem _ he)]
      rfl
  show (entriesWith readKey r room _ >>= _) = _
  rw [hentries]
  rfl

end Reader

/-! ## Tagged choices -/

namespace Tagged

open Reader

variable {α : Type} {t : Tagged α} {room : Nat} {name field title : String} {read : Reader α}
  {v : Json} {a : α}

theorem caseOf_pieces {c : TaggedCase α} (h : t.cases.lookup name = some c) :
    t.caseOf room (.string (Json.pieces name) none) = .ok c := by
  rw [caseOf]
  show (spelled (Json.pieces name) none >>= _) = _
  rw [spelled_pieces]
  show choose t.cases name = _
  rw [choose, h]

/-- A form by itself is read by its tag. -/
theorem reads_bare (h : t.cases.lookup name = some (.bare a)) :
    t.read.Reads (room + 1) (.object [(t.tag, .string name)]) a := by
  have hentries : t.splitEntries room (Json.documentEntries [(t.tag, .string name)]) none =
      .ok (some (.bare a), []) := by
    rw [Json.documentEntries, splitEntries, key_pieces]
    show (if t.tag = t.tag then _ else _) = _
    rw [if_pos rfl, Json.document, caseOf_pieces h]
    rfl
  show (t.splitEntries room _ none >>= _) = _
  rw [hentries]
  rfl

/-- A form with one field is read by its tag and its field. -/
theorem reads_holding (h : t.cases.lookup name = some (.holding title field read))
    (hfield : field ≠ t.tag) (hread : read.Reads room v a)
    (hvalue : ∃ j, value room v.document = .ok j) :
    t.read.Reads (room + 1) (.object [(t.tag, .string name), (field, v)]) a := by
  obtain ⟨j, hj⟩ := hvalue
  have hothers : t.splitEntries room (Json.documentEntries [(field, v)])
      (some (.holding title field read)) =
        .ok (some (.holding title field read), [(field, v.document)]) := by
    rw [Json.documentEntries, splitEntries, key_pieces]
    show (if field = t.tag then _ else _) = _
    rw [if_neg hfield, hj]
    rfl
  have hentries : t.splitEntries room (Json.documentEntries [(t.tag, .string name), (field, v)])
      none = .ok (some (.holding title field read), [(field, v.document)]) := by
    rw [Json.documentEntries, splitEntries, key_pieces]
    show (if t.tag = t.tag then _ else _) = _
    rw [if_pos rfl, Json.document, caseOf_pieces h]
    exact hothers
  have hentry : fieldOf field read room [(field, v.document)] none = .ok a := by
    rw [fieldOf, if_pos rfl, hread]
    rfl
  show (t.splitEntries room _ none >>= _) = _
  rw [hentries]
  exact hentry

end Tagged

end SoundScenes
