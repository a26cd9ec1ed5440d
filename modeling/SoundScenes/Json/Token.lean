import SoundScenes.Json.Number

/-!
# Tokens of a JSON text

A text is cut into tokens from left to right. Damage inside a token is kept in the token rather than
reported, since whether it matters depends on who reads it: a part of the text that is passed over
is held to the shape of its tokens only, while a number or string that is used must also have a
value.

* `Piece` — a string's content, character by character, as it was written;
* `Piece.join` — the string that pieces spell, with surrogate halves paired;
* `Token.scan` — the tokens of a text, up to the first one that nobody can pass over.
-/

namespace SoundScenes

/-- A part of a string as written: a character, a character escaped by a letter, or a UTF-16 unit
escaped by number. -/
inductive Piece where
  | plain (c : Char)
  | escaped (c : Char)
  | unit (n : Nat)
  deriving Repr, DecidableEq

namespace Piece

/-- Whether a unit is the first half of a surrogate pair. -/
def isHigh (n : Nat) : Bool := 0xD800 ≤ n ∧ n < 0xDC00

/-- Whether a unit is the second half of a surrogate pair. -/
def isLow (n : Nat) : Bool := 0xDC00 ≤ n ∧ n < 0xE000

/-- The character of a surrogate pair. -/
def pair (high low : Nat) : Char :=
  Char.ofNat (0x10000 + (high - 0xD800) * 0x400 + (low - 0xDC00))

/-- The characters that pieces spell. A surrogate half without its partner is malformed. Where the
string breaks off, `ending` is the damage there. -/
def join (ending : Option Fault) : List Piece → Except Fault (List Char)
  | [] =>
    match ending with
    | none => .ok []
    | some f => .error f
  | plain c :: ps => (join ending ps).map (c :: ·)
  | escaped c :: ps => (join ending ps).map (c :: ·)
  | unit n :: ps =>
    if isHigh n then
      match ps with
      | [] => .error (ending.getD .malformed)
      | unit m :: rest =>
        if isLow m then (join ending rest).map (pair n m :: ·) else .error .malformed
      | plain _ :: _ => .error .malformed
      | escaped _ :: _ => .error .malformed
    else if isLow n then .error .malformed
    else (join ending ps).map (Char.ofNat n :: ·)

end Piece

/-- A token. -/
inductive Token where
  | null
  | bool (b : Bool)
  | number (d : Digits)
  /-- A string and, where it breaks off, the damage at its end. -/
  | string (pieces : List Piece) (ending : Option Fault)
  /-- Something that begins with `first` and is no token: the damage met by a reader, and by one who
  passes over it. -/
  | scrap (first : Char) (reading skipping : Fault)
  | openArray
  | closeArray
  | openObject
  | closeObject
  | comma
  | colon

namespace Token

/-- White space between tokens. -/
def isSpace (c : Char) : Bool := c == ' ' || c == '\n' || c == '\r' || c == '\t'

/-- A text's damage at its end: it is cut where nothing follows. -/
def faultAt (cs : List Char) : Fault := if cs.isEmpty then .cut else .malformed

/-- The value of a hexadecimal digit. -/
def hexDigit (c : Char) : Option Nat :=
  if '0' ≤ c ∧ c ≤ '9' then some (c.toNat - '0'.toNat)
  else if 'a' ≤ c ∧ c ≤ 'f' then some (c.toNat - 'a'.toNat + 10)
  else if 'A' ≤ c ∧ c ≤ 'F' then some (c.toNat - 'A'.toNat + 10)
  else none

/-- The unit that four hexadecimal digits spell. -/
def hexUnit (a b c d : Char) : Option Nat := do
  return ((← hexDigit a) * 16 + (← hexDigit b)) * 256 + ((← hexDigit c) * 16 + (← hexDigit d))

/-- The character that a letter after a backslash stands for. -/
def letterEscape (c : Char) : Option Char :=
  match c with
  | '"' => some '"'
  | '\\' => some '\\'
  | '/' => some '/'
  | 'b' => some '\x08'
  | 'f' => some '\x0c'
  | 'n' => some '\n'
  | 'r' => some '\r'
  | 't' => some '\t'
  | _ => none

/-- The damage of a numbered escape whose digits are not four hexadecimal ones: the text is cut when
fewer than four bytes of it are left. -/
def unitFault (cs : List Char) : Fault :=
  if (String.ofList (cs.take 4)).utf8ByteSize < 4 then .cut else .malformed

/-- The pieces of a string after its opening quote, and what follows its closing quote or the damage
that breaks it off. -/
def scanPieces : List Char → List Piece × Except Fault (List Char)
  | [] => ([], .error .cut)
  | '"' :: rest => ([], .ok rest)
  | '\\' :: 'u' :: a :: b :: c :: d :: rest =>
    match hexUnit a b c d with
    | some n =>
      (.unit n :: (scanPieces rest).1, (scanPieces rest).2)
    | none => ([], .error .malformed)
  | '\\' :: 'u' :: rest => ([], .error (unitFault rest))
  | ['\\'] => ([], .error .cut)
  | '\\' :: e :: rest =>
    match letterEscape e with
    | some c =>
      (.escaped c :: (scanPieces rest).1, (scanPieces rest).2)
    | none => ([], .error .malformed)
  | c :: rest =>
    if c.toNat < 0x20 then ([], .error .malformed)
    else
      (.plain c :: (scanPieces rest).1, (scanPieces rest).2)

/-- Splits a text after its leading digits. -/
def splitDigits (cs : List Char) : List Char × List Char :=
  (cs.takeWhile Char.isDigit, cs.dropWhile Char.isDigit)

/-- The fraction of a number: a point with at least one digit after it, if there is a point. -/
def scanFraction (cs : List Char) : Except Fault (Option (List Char) × List Char) :=
  match cs with
  | '.' :: r =>
    let (ds, rest) := splitDigits r
    if ds.isEmpty then .error (faultAt rest) else .ok (some ds, rest)
  | _ => .ok (none, cs)

/-- An optional sign: whether it is a minus, and what follows it. -/
def scanSign (cs : List Char) : Bool × List Char :=
  match cs with
  | '+' :: r => (false, r)
  | '-' :: r => (true, r)
  | _ => (false, cs)

/-- The exponent of a number: the letter, a sign or none, and at least one digit, if the letter is
there. -/
def scanExponent (cs : List Char) : Except Fault (Option (Bool × List Char) × List Char) :=
  match cs with
  | c :: r =>
    if c = 'e' ∨ c = 'E' then
      let (negative, r) := scanSign r
      let (ds, rest) := splitDigits r
      if ds.isEmpty then .error (faultAt rest) else .ok (some (negative, ds), rest)
    else .ok (none, cs)
  | [] => .ok (none, cs)

/-- The part of a number after its sign. More than one digit before the point may not begin with
zero. -/
def scanMagnitude (negative : Bool) (cs : List Char) : Except Fault (Digits × List Char) :=
  let (whole, rest) := splitDigits cs
  if whole.isEmpty then .error (faultAt rest)
  else if whole.head? = some '0' ∧ 1 < whole.length then .error .malformed
  else
    (scanFraction rest).bind fun fraction =>
      (scanExponent fraction.2).map fun exponent =>
        (⟨negative, whole, fraction.1, exponent.1⟩, exponent.2)

/-- A number at the start of a text. -/
def scanNumber (cs : List Char) : Except Fault (Digits × List Char) :=
  match cs with
  | '-' :: r => scanMagnitude true r
  | _ => scanMagnitude false cs

/-- The rest of a text after a word, or the damage where it departs from the word. -/
def expectWord : List Char → List Char → Except Fault (List Char)
  | [], cs => .ok cs
  | _ :: _, [] => .error .cut
  | w :: ws, c :: cs => if w = c then expectWord ws cs else .error .malformed

/-- A literal after its first letter. -/
def scanWord (first : Char) (word : String) (t : Token) (cs : List Char) : Token × List Char :=
  match expectWord word.toList cs with
  | .ok rest => (t, rest)
  | .error f => (.scrap first f f, [])

/-- The token at the start of a text that does not begin with white space, given by its first
character and the others, and the text after it. After damage that nobody can pass over nothing is
left. -/
def scanOne (c : Char) (cs : List Char) : Token × List Char :=
  match c with
  | '[' => (.openArray, cs)
  | ']' => (.closeArray, cs)
  | '\x7b' => (.openObject, cs)
  | '\x7d' => (.closeObject, cs)
  | ',' => (.comma, cs)
  | ':' => (.colon, cs)
  | '"' =>
    match scanPieces cs with
    | (ps, .ok rest) => (.string ps none, rest)
    | (ps, .error f) => (.string ps (some f), [])
  | 'n' => scanWord c "ull" .null cs
  | 't' => scanWord c "rue" (.bool true) cs
  | 'f' => scanWord c "alse" (.bool false) cs
  | c =>
    if c = '-' ∨ c.isDigit then
      match scanNumber (c :: cs) with
      | .ok (d, rest) => (.number d, rest)
      | .error f => (.scrap c f .malformed, [])
    else (.scrap c .malformed .malformed, [])

/-! ## Scanning gets ahead -/

theorem length_splitDigits (cs : List Char) : (splitDigits cs).2.length ≤ cs.length :=
  (List.dropWhile_sublist _).length_le

theorem length_scanPieces {cs rest : List Char} (h : (scanPieces cs).2 = .ok rest) :
    rest.length < cs.length := by
  fun_induction scanPieces cs with
  | case1 | case4 | case5 | case6 | case8 | case9 => simp at h
  | case2 r =>
    simp only [Except.ok.injEq] at h
    simp [h]
  | case3 a b c d r n hn ih =>
    have := ih h
    simp only [List.length_cons]
    omega
  | case7 e r _ _ c hc ih =>
    have := ih h
    simp only [List.length_cons]
    omega
  | case10 c r _ _ _ _ _ hc ih =>
    have := ih h
    simp only [List.length_cons]
    omega

theorem length_scanFraction {cs rest : List Char} {f : Option (List Char)}
    (h : scanFraction cs = .ok (f, rest)) : rest.length ≤ cs.length := by
  unfold scanFraction at h
  split at h
  · next r =>
    have := length_splitDigits r
    simp only at h
    split at h
    · simp at h
    · simp only [Except.ok.injEq, Prod.mk.injEq] at h
      simp only [← h.2, List.length_cons]
      omega
  · simp only [Except.ok.injEq, Prod.mk.injEq] at h
    simp [h.2]

theorem length_scanSign (cs : List Char) : (scanSign cs).2.length ≤ cs.length := by
  unfold scanSign
  split <;> simp

theorem length_scanExponent {cs rest : List Char} {e : Option (Bool × List Char)}
    (h : scanExponent cs = .ok (e, rest)) : rest.length ≤ cs.length := by
  unfold scanExponent at h
  split at h
  · next c r =>
    have hs := length_scanSign r
    have hd := length_splitDigits (scanSign r).2
    simp only at h
    split at h
    · split at h
      · simp at h
      · simp only [Except.ok.injEq, Prod.mk.injEq] at h
        simp only [← h.2, List.length_cons]
        omega
    · simp only [Except.ok.injEq, Prod.mk.injEq] at h
      simp [← h.2]
  · simp only [Except.ok.injEq, Prod.mk.injEq] at h
    simp [← h.2]

theorem length_scanMagnitude {b : Bool} {cs rest : List Char} {d : Digits}
    (h : scanMagnitude b cs = .ok (d, rest)) : rest.length < cs.length := by
  have hd : (splitDigits cs).1.length + (splitDigits cs).2.length = cs.length := by
    simp only [splitDigits, ← List.length_append, List.takeWhile_append_dropWhile]
  simp only [scanMagnitude] at h
  split at h
  · simp at h
  · next hw =>
    have hpos : 0 < (splitDigits cs).1.length := by
      simpa [List.isEmpty_iff, List.length_pos_iff] using hw
    split at h
    · simp at h
    · cases hf : scanFraction (splitDigits cs).2 with
      | error f => simp [hf, Except.bind] at h
      | ok f =>
        cases he : scanExponent f.2 with
        | error e => simp [hf, he, Except.bind, Except.map] at h
        | ok e =>
          simp only [hf, he, Except.bind, Except.map, Except.ok.injEq, Prod.mk.injEq] at h
          have : f.2.length ≤ (splitDigits cs).2.length := length_scanFraction hf
          have : e.2.length ≤ f.2.length := length_scanExponent he
          rw [← h.2]
          omega

theorem length_scanNumber {cs rest : List Char} {d : Digits}
    (h : scanNumber cs = .ok (d, rest)) : rest.length < cs.length := by
  unfold scanNumber at h
  split at h
  · have := length_scanMagnitude h
    simp only [List.length_cons]
    omega
  · exact length_scanMagnitude h

theorem length_expectWord {ws cs rest : List Char} (h : expectWord ws cs = .ok rest) :
    rest.length ≤ cs.length := by
  fun_induction expectWord ws cs with
  | case1 cs =>
    simp only [Except.ok.injEq] at h
    simp [h]
  | case2 => simp at h
  | case3 ws c cs ih =>
    have := ih h
    simp only [List.length_cons]
    omega
  | case4 => simp at h

theorem length_scanWord (first : Char) (word : String) (t : Token) (cs : List Char) :
    (scanWord first word t cs).2.length ≤ cs.length := by
  unfold scanWord
  split
  · next h => exact length_expectWord h
  · simp

/-- Nothing is left of a text that was not there after its first character. -/
theorem length_scanOne (c : Char) (cs : List Char) : (scanOne c cs).2.length ≤ cs.length := by
  unfold scanOne
  split
  · exact Nat.le_refl _
  · exact Nat.le_refl _
  · exact Nat.le_refl _
  · exact Nat.le_refl _
  · exact Nat.le_refl _
  · exact Nat.le_refl _
  · split
    · next h => exact Nat.le_of_lt (length_scanPieces (by rw [h]))
    · simp
  · exact length_scanWord _ _ _ _
  · exact length_scanWord _ _ _ _
  · exact length_scanWord _ _ _ _
  · split
    · split
      · next h =>
        exact Nat.le_of_lt_succ (length_scanNumber h)
      · simp
    · simp

/-! ## All tokens -/

/-- The tokens of a text, up to the first one that nobody can pass over. -/
def scan (cs : List Char) : List Token :=
  match cs with
  | [] => []
  | c :: r => if isSpace c then scan r else (scanOne c r).1 :: scan (scanOne c r).2
termination_by cs.length
decreasing_by
  · simp
  · have := length_scanOne c r
    simp only [List.length_cons]
    omega

end Token

end SoundScenes
