import SoundScenes.Proofs.Json.Strings

/-!
# Written values are scanned back

The text of a value is cut into the tokens that it was put together from, whatever its layout, and
the tokens make up the document that stands for the value. So nothing is lost or changed between a
value and the document of its text.

* `Json.document` — the document that stands for a value;
* `Token.scan_write` — the tokens of a written value;
* `Assembly.foldl_tokens` — what they are put together to;
* `Document.ofString_pretty`, `Document.ofString_compact` — the document of a written value.
-/

namespace SoundScenes

namespace Json

mutual

/-- The document that stands for a value. -/
def document : Json → Document
  | .null => .null
  | .bool b => .bool b
  | .number n => .number n.digits
  | .string s => .string (pieces s) none
  | .array items => .array (documentItems items) none
  | .object entries => .object (documentEntries entries) none

/-- `document` on each item. -/
def documentItems : List Json → List Document
  | [] => []
  | v :: vs => document v :: documentItems vs

/-- `document` on each entry. -/
def documentEntries : List (String × Json) → List (Document × Document)
  | [] => []
  | (k, v) :: es => (.string (pieces k) none, document v) :: documentEntries es

end

mutual

/-- The tokens of a value. -/
def tokens : Json → List Token
  | .null => [.null]
  | .bool b => [.bool b]
  | .number n => [.number n.digits]
  | .string s => [.string (pieces s) none]
  | .array [] => [.openArray, .closeArray]
  | .array (v :: vs) => .openArray :: (tokens v ++ (itemTokens vs ++ [.closeArray]))
  | .object [] => [.openObject, .closeObject]
  | .object ((k, v) :: es) =>
    .openObject :: .string (pieces k) none :: .colon ::
      (tokens v ++ (entryTokens es ++ [.closeObject]))

/-- The tokens of the items of an array after the first. -/
def itemTokens : List Json → List Token
  | [] => []
  | v :: vs => .comma :: (tokens v ++ itemTokens vs)

/-- The tokens of the entries of an object after the first. -/
def entryTokens : List (String × Json) → List Token
  | [] => []
  | (k, v) :: es => .comma :: .string (pieces k) none :: .colon :: (tokens v ++ entryTokens es)

end

theorem documentItems_eq_map (vs : List Json) : documentItems vs = vs.map document := by
  induction vs with
  | nil => rfl
  | cons v vs ih => rw [documentItems, ih, List.map_cons]

end Json

/-! ## Tokens -/

namespace Token

open Json

variable {c : Char} {rest : List Char}

theorem scan_space (h : isSpace c = true) : scan (c :: rest) = scan rest := by
  rw [scan, if_pos h]

theorem scan_token (h : isSpace c = false) :
    scan (c :: rest) = (scanOne c rest).1 :: scan (scanOne c rest).2 := by
  rw [scan, if_neg (by simp [h])]

/-- Line breaks are passed over. -/
theorem scan_lineBreak (l : Level) (rest : List Char) : scan (lineBreak l ++ rest) = scan rest := by
  cases l with
  | none => rfl
  | some n =>
    have hspaces (m : Nat) : scan (List.replicate m ' ' ++ rest) = scan rest := by
      induction m with
      | zero => rfl
      | succ m ih => rw [List.replicate_succ, List.cons_append, scan_space rfl, ih]
    rw [lineBreak, List.cons_append, scan_space rfl, hspaces]

theorem scan_afterKey (l : Level) (rest : List Char) :
    scan (afterKey l ++ rest) = .colon :: scan rest := by
  cases l with
  | none => exact scan_token rfl
  | some n =>
    show scan (':' :: ' ' :: rest) = _
    rw [scan_token rfl, scanOne, scan_space rfl]

theorem scan_writeString (s : String) (rest : List Char) :
    scan (writeString s ++ rest) = .string (pieces s) none :: scan rest := by
  have hpieces := scanPieces_flatMap s.toList rest
  rw [writeString, List.append_assoc, List.cons_append, scan_token rfl, List.cons_append,
    List.nil_append, scanOne, hpieces]
  rfl

/-- A number is known by its first character. -/
theorem scanOne_number (h : c = '-' ∨ c.isDigit = true) {d : Digits} {r : List Char}
    (hscan : scanNumber (c :: rest) = .ok (d, r)) : scanOne c rest = (.number d, r) := by
  unfold scanOne
  split
  all_goals try (exact absurd h (by decide))
  rw [if_pos h, hscan]

theorem scan_writeNumeral (n : Numeral) (h : EndsNumber rest) :
    scan (writeNumeral n ++ rest) = .number n.digits :: scan rest := by
  have hscan := scanNumber_text n.wellFormed_digits h
  rw [← Numeral.text_digits]
  -- the text begins with a sign or a digit
  obtain ⟨c, r, htext, hc⟩ : ∃ c r, n.digits.text = c :: r ∧ (c = '-' ∨ c.isDigit = true) := by
    rw [Digits.text]
    cases n.digits.negative with
    | true => exact ⟨'-', _, rfl, .inl rfl⟩
    | false =>
      obtain ⟨hne, hdigits⟩ := n.wellFormed_digits.whole
      cases hwhole : n.digits.whole with
      | nil => exact absurd hwhole hne
      | cons c r => exact ⟨c, _, rfl, .inr (hdigits c (hwhole ▸ List.mem_cons_self))⟩
  rw [htext, List.cons_append] at hscan ⊢
  have hspace : isSpace c = false := by
    rcases hc with rfl | hc
    · rfl
    · cases hspace : isSpace c with
      | false => rfl
      | true =>
        simp only [isSpace, Bool.or_eq_true, beq_iff_eq] at hspace
        rcases hspace with ((rfl | rfl) | rfl) | rfl <;> cases hc
  rw [scan_token hspace, scanOne_number hc hscan]

theorem endsNumber_cons (hc : c.isDigit = false ∧ c ≠ '.' ∧ c ≠ 'e' ∧ c ≠ 'E') :
    EndsNumber (c :: rest) := by
  intro c' h
  cases h
  exact hc

theorem endsNumber_lineBreak (l : Level) (h : EndsNumber rest) :
    EndsNumber (lineBreak l ++ rest) := by
  cases l with
  | none => exact h
  | some n => exact endsNumber_cons (by decide)

theorem endsNumber_writeItems (l : Level) (vs : List Json) (h : EndsNumber rest) :
    EndsNumber (writeItems l vs ++ rest) := by
  cases vs with
  | nil => exact h
  | cons v vs => exact endsNumber_cons (by decide)

theorem endsNumber_writeEntries (l : Level) (es : List (String × Json)) (h : EndsNumber rest) :
    EndsNumber (writeEntries l es ++ rest) := by
  cases es with
  | nil => exact h
  | cons e es => exact endsNumber_cons (by decide)

mutual

/-- A written value is cut into its tokens, whatever stands behind it. -/
theorem scan_write (l : Level) (v : Json) (rest : List Char) (h : EndsNumber rest) :
    scan (write l v ++ rest) = tokens v ++ scan rest := by
  match v with
  | .null => exact scan_token rfl
  | .bool true => exact scan_token rfl
  | .bool false => exact scan_token rfl
  | .number n => exact scan_writeNumeral n h
  | .string s => exact scan_writeString s rest
  | .array [] =>
    show scan ('[' :: ']' :: rest) = _
    rw [scan_token rfl, scanOne, scan_token rfl]
    rfl
  | .array (x :: xs) =>
    have hend : EndsNumber (lineBreak l ++ (']' :: rest)) :=
      endsNumber_lineBreak l (endsNumber_cons (by decide))
    have hitems := scan_writeItems (deeper l) xs (lineBreak l ++ (']' :: rest)) hend
    have hitem := scan_write (deeper l) x
      (writeItems (deeper l) xs ++ (lineBreak l ++ (']' :: rest)))
      (endsNumber_writeItems _ _ hend)
    rw [write, tokens]
    simp only [List.cons_append, List.append_assoc, List.nil_append]
    rw [scan_token rfl, scanOne, scan_lineBreak, hitem, hitems, scan_lineBreak, scan_token rfl,
      scanOne]
  | .object [] =>
    show scan ('\x7b' :: '\x7d' :: rest) = _
    rw [scan_token rfl, scanOne, scan_token rfl]
    rfl
  | .object ((k, x) :: es) =>
    have hend : EndsNumber (lineBreak l ++ ('\x7d' :: rest)) :=
      endsNumber_lineBreak l (endsNumber_cons (by decide))
    have hentries := scan_writeEntries (deeper l) es (lineBreak l ++ ('\x7d' :: rest)) hend
    have hvalue := scan_write (deeper l) x
      (writeEntries (deeper l) es ++ (lineBreak l ++ ('\x7d' :: rest)))
      (endsNumber_writeEntries _ _ hend)
    rw [write, tokens]
    simp only [List.cons_append, List.append_assoc, List.nil_append]
    rw [scan_token rfl, scanOne, scan_lineBreak, scan_writeString, scan_afterKey, hvalue, hentries,
      scan_lineBreak, scan_token rfl, scanOne]

theorem scan_writeItems (l : Level) (vs : List Json) (rest : List Char) (h : EndsNumber rest) :
    scan (writeItems l vs ++ rest) = itemTokens vs ++ scan rest := by
  match vs with
  | [] => rfl
  | v :: vs =>
    have hvalue := scan_write l v (writeItems l vs ++ rest) (endsNumber_writeItems l vs h)
    rw [writeItems, itemTokens, List.cons_append, scan_token rfl, scanOne]
    simp only [List.append_assoc, List.cons_append]
    rw [scan_lineBreak, hvalue, scan_writeItems l vs rest h]

theorem scan_writeEntries (l : Level) (es : List (String × Json)) (rest : List Char)
    (h : EndsNumber rest) : scan (writeEntries l es ++ rest) = entryTokens es ++ scan rest := by
  match es with
  | [] => rfl
  | (k, v) :: es =>
    have hvalue := scan_write l v (writeEntries l es ++ rest) (endsNumber_writeEntries l es h)
    rw [writeEntries, entryTokens, List.cons_append, scan_token rfl, scanOne]
    simp only [List.append_assoc, List.cons_append]
    rw [scan_lineBreak, scan_writeString, scan_afterKey, hvalue, scan_writeEntries l es rest h]

end

end Token

/-! ## Documents -/

namespace Assembly

open Json

/-- A half-built document where a value must follow, in the containers that are open then. -/
def Expects (a : Assembly) (frames : List Frame) : Prop :=
  ∀ t, t ≠ .closeArray → a.step t = place frames t

theorem expects_value (frames : List Frame) : (Assembly.value frames).Expects frames :=
  fun _ _ => rfl

theorem expects_item (frames : List Frame) :
    (Assembly.item frames).Expects (.array [] :: frames) := by
  intro t ht
  cases t <;> first | rfl | exact absurd rfl ht

mutual

/-- The tokens of a value make up its document. -/
theorem foldl_tokens (v : Json) (ts : List Token) (a : Assembly) (frames : List Frame)
    (h : a.Expects frames) :
    (tokens v ++ ts).foldl step a = ts.foldl step (.after frames v.document) := by
  match v with
  | .null => rw [tokens, List.cons_append, List.foldl_cons, h _ (by simp)]; rfl
  | .bool b => rw [tokens, List.cons_append, List.foldl_cons, h _ (by simp)]; rfl
  | .number n => rw [tokens, List.cons_append, List.foldl_cons, h _ (by simp)]; rfl
  | .string s => rw [tokens, List.cons_append, List.foldl_cons, h _ (by simp)]; rfl
  | .array [] => rw [tokens, List.cons_append, List.foldl_cons, h _ (by simp)]; rfl
  | .object [] => rw [tokens, List.cons_append, List.foldl_cons, h _ (by simp)]; rfl
  | .array (x :: xs) =>
    rw [tokens, List.cons_append, List.foldl_cons, h _ (by simp), place, List.append_assoc,
      foldl_tokens x _ _ _ (expects_item frames), List.append_assoc]
    exact foldl_itemTokens xs ts frames [] x.document
  | .object ((k, x) :: es) =>
    rw [tokens, List.cons_append, List.foldl_cons, h _ (by simp), place, List.cons_append,
      List.foldl_cons, List.cons_append, List.foldl_cons, List.append_assoc]
    refine (foldl_tokens x _ _ _ (expects_value _)).trans ?_
    rw [List.append_assoc]
    exact foldl_entryTokens es ts frames [] (.string (pieces k) none) x.document

theorem foldl_itemTokens (vs : List Json) (ts : List Token) (frames : List Frame)
    (items : List Document) (d : Document) :
    (itemTokens vs ++ (.closeArray :: ts)).foldl step (.after (.array items :: frames) d) =
      ts.foldl step (.after frames (.array ((d :: items).reverse ++ documentItems vs) none)) := by
  match vs with
  | [] => rw [documentItems, List.append_nil]; rfl
  | v :: vs =>
    rw [itemTokens, List.cons_append, List.foldl_cons, List.append_assoc]
    refine (foldl_tokens v _ _ _ (expects_value _)).trans ?_
    rw [foldl_itemTokens vs ts frames (d :: items) v.document, documentItems,
      List.reverse_cons (a := v.document), List.append_assoc]
    rfl

theorem foldl_entryTokens (es : List (String × Json)) (ts : List Token) (frames : List Frame)
    (entries : List (Document × Document)) (key d : Document) :
    (entryTokens es ++ (.closeObject :: ts)).foldl step (.after (.object entries key :: frames) d) =
      ts.foldl step
        (.after frames (.object (((key, d) :: entries).reverse ++ documentEntries es) none)) := by
  match es with
  | [] => rw [documentEntries, List.append_nil]; rfl
  | (k, v) :: es =>
    rw [entryTokens, List.cons_append, List.foldl_cons, List.cons_append, List.foldl_cons,
      List.cons_append, List.foldl_cons, List.append_assoc]
    refine (foldl_tokens v _ _ _ (expects_value _)).trans ?_
    rw [foldl_entryTokens es ts frames ((key, d) :: entries) (.string (pieces k) none) v.document,
      documentEntries, List.reverse_cons (a := (Document.string (pieces k) none, v.document)),
      List.append_assoc]
    rfl

end

end Assembly

namespace Document

theorem ofString_write (l : Json.Level) (v : Json) :
    ofString (String.ofList (Json.write l v)) = (v.document, false) := by
  have hscan := Token.scan_write l v [] endsNumber_nil
  rw [List.append_nil] at hscan
  have hnil : Token.scan [] = [] := by rw [Token.scan]
  rw [ofString, String.toList_ofList, hscan, hnil, ofTokens,
    Assembly.foldl_tokens v [] _ _ (Assembly.expects_value [])]
  rfl

/-- The document of an indented text. -/
theorem ofString_pretty (v : Json) : ofString v.pretty = (v.document, false) := ofString_write _ v

/-- The document of a text on one line. -/
theorem ofString_compact (v : Json) : ofString v.compact = (v.document, false) := ofString_write _ v

end Document

end SoundScenes
