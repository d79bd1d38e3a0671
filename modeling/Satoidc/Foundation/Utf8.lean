import Mathlib.Data.Nat.Basic

/-! `bytes.decode("utf-8", "replace")`, one byte at a time. A sequence that breaks off
is replaced as a whole by one replacement character. Strict decoding accepts the bytes
that nothing has to be replaced in. -/

namespace Foundation.Utf8

/-- Where the decoder stands: between characters, or behind the first bytes of one,
with their value, the bounds of the next byte and the number of bytes after that. -/
inductive State where
  | between
  | within (value low high more : Nat) (bounds : 0x80 ≤ low ∧ high ≤ 0xbf)

def replacement : Char := Char.ofNat 0xfffd

/-- What a text that ends here still gives. -/
def State.flush : State → List Char
  | .between => []
  | .within .. => [replacement]

def start (byte : Nat) : List Char × State :=
  if byte < 0x80 then ([Char.ofNat byte], .between)
  else if byte < 0xc2 then ([replacement], .between)
  else if byte < 0xe0 then ([], .within (byte - 0xc0) 0x80 0xbf 0 (by decide))
  else if byte < 0xf0 then
    ([], .within (byte - 0xe0) (if byte = 0xe0 then 0xa0 else 0x80) (if byte = 0xed then 0x9f else 0xbf) 1
      ⟨by split <;> decide, by split <;> decide⟩)
  else if byte < 0xf5 then
    ([], .within (byte - 0xf0) (if byte = 0xf0 then 0x90 else 0x80) (if byte = 0xf4 then 0x8f else 0xbf) 2
      ⟨by split <;> decide, by split <;> decide⟩)
  else ([replacement], .between)

/-- The characters that a byte completes, and where it leaves the decoder. -/
def State.feed (byte : Nat) : State → List Char × State
  | .between => start byte
  | .within value low high more _ =>
    if low ≤ byte ∧ byte ≤ high then
      if more = 0 then ([Char.ofNat (value * 64 + (byte - 0x80))], .between)
      else ([], .within (value * 64 + (byte - 0x80)) 0x80 0xbf (more - 1) (by decide))
    else (replacement :: (start byte).1, (start byte).2)

def State.feedAll : State → List Nat → List Char × State
  | state, [] => ([], state)
  | state, byte :: bytes =>
    let rest := (state.feed byte).2.feedAll bytes
    ((state.feed byte).1 ++ rest.1, rest.2)

/-- A byte that does not continue a character starts one. -/
theorem feed_start {byte : Nat} (starts : byte < 0x80 ∨ 0xbf < byte) (state : State) :
    state.feed byte = (state.flush ++ (start byte).1, (start byte).2) := by
  cases state with
  | between => rfl
  | within value low high more bounds =>
    have outside : ¬ (low ≤ byte ∧ byte ≤ high) := by omega
    simp [State.feed, outside, State.flush]

theorem start_flush (byte : Nat) : (start byte).1.length + (start byte).2.flush.length ≤ 1 := by
  unfold start
  split
  · simp [State.flush]
  · split
    · simp [State.flush]
    · split
      · simp [State.flush]
      · split
        · simp [State.flush]
        · split <;> simp [State.flush]

/-- A byte gives at most one character more. -/
theorem feed_flush (byte : Nat) (state : State) :
    (state.feed byte).1.length + (state.feed byte).2.flush.length ≤ state.flush.length + 1 := by
  have starting := start_flush byte
  cases state with
  | between => simpa [State.feed, State.flush] using starting
  | within value low high more bounds =>
    simp only [State.feed]
    split
    · split <;> simp [State.flush]
    · simp only [List.length_cons, State.flush] at starting ⊢
      omega

theorem encode_toNat (c : Char) : (String.utf8EncodeChar c).map UInt8.toNat =
    if c.toNat ≤ 0x7f then [c.toNat]
    else if c.toNat ≤ 0x7ff then [c.toNat / 64 % 32 + 0xc0, c.toNat % 64 + 0x80]
    else if c.toNat ≤ 0xffff then [c.toNat / 4096 % 16 + 0xe0, c.toNat / 64 % 64 + 0x80, c.toNat % 64 + 0x80]
    else [c.toNat / 262144 % 8 + 0xf0, c.toNat / 4096 % 64 + 0x80, c.toNat / 64 % 64 + 0x80, c.toNat % 64 + 0x80] := by
  have byte : ∀ {n : Nat}, n < 256 → (UInt8.ofNat n).toNat = n := fun small => by
    rw [UInt8.toNat_ofNat']
    exact Nat.mod_eq_of_lt small
  have same : c.val.toNat = c.toNat := rfl
  unfold String.utf8EncodeChar
  simp only [same]
  split
  · rw [List.map_cons, List.map_nil, byte (by omega)]
  · split
    · rw [List.map_cons, List.map_cons, List.map_nil, byte (by omega), byte (by omega)]
    · split
      · rw [List.map_cons, List.map_cons, List.map_cons, List.map_nil, byte (by omega), byte (by omega), byte (by omega)]
      · rw [List.map_cons, List.map_cons, List.map_cons, List.map_cons, List.map_nil, byte (by omega), byte (by omega),
          byte (by omega), byte (by omega)]

theorem feed_last {value low high byte : Nat} {bounds : 0x80 ≤ low ∧ high ≤ 0xbf} (inside : low ≤ byte ∧ byte ≤ high) :
    (State.within value low high 0 bounds).feed byte = ([Char.ofNat (value * 64 + (byte - 0x80))], .between) := by
  simp [State.feed, inside]

theorem feed_more {value low high more byte : Nat} {bounds : 0x80 ≤ low ∧ high ≤ 0xbf} (inside : low ≤ byte ∧ byte ≤ high) :
    (State.within value low high (more + 1) bounds).feed byte =
      ([], .within (value * 64 + (byte - 0x80)) 0x80 0xbf more (by decide)) := by
  simp [State.feed, inside]

/-- The bytes of a character end whatever came before, and give the character. -/
theorem feed_encoded (state : State) (c : Char) :
    state.feedAll ((String.utf8EncodeChar c).map UInt8.toNat) = (state.flush ++ [c], .between) := by
  have bound : c.toNat < 0xd800 ∨ 0xdfff < c.toNat ∧ c.toNat < 0x110000 := c.valid
  have value : ∀ {n : Nat}, n = c.toNat → Char.ofNat n = c := fun same => by rw [same, Char.ofNat_toNat]
  rw [encode_toNat]
  split
  next one =>
    have begins : start c.toNat = ([c], .between) := by
      rw [start, if_pos (by omega), Char.ofNat_toNat]
    rw [State.feedAll, feed_start (by omega), begins]
    simp [State.feedAll]
  next =>
    split
    next two =>
      have begins : start (c.toNat / 64 % 32 + 0xc0) =
          ([], .within (c.toNat / 64 % 32 + 0xc0 - 0xc0) 0x80 0xbf 0 (by decide)) := by
        rw [start, if_neg (by omega), if_neg (by omega), if_pos (by omega)]
      rw [State.feedAll, feed_start (by omega), begins, State.feedAll, feed_last (by omega), value (by omega)]
      simp [State.feedAll]
    next =>
      split
      next three =>
        rw [State.feedAll, feed_start (by omega), start, if_neg (by omega), if_neg (by omega), if_neg (by omega),
          if_pos (by omega), State.feedAll, feed_more ?_, State.feedAll, feed_last (by omega), value (by omega)]
        · simp [State.feedAll]
        · split
          · split <;> omega
          · split <;> omega
      next four =>
        rw [State.feedAll, feed_start (by omega), start, if_neg (by omega), if_neg (by omega), if_neg (by omega),
          if_neg (by omega), if_pos (by omega), State.feedAll, feed_more ?_, State.feedAll, feed_more (by omega),
          State.feedAll, feed_last (by omega), value (by omega)]
        · simp [State.feedAll]
        · split
          · split <;> omega
          · split <;> omega

theorem feedAll_append (state : State) (first second : List Nat) :
    state.feedAll (first ++ second) =
      ((state.feedAll first).1 ++ ((state.feedAll first).2.feedAll second).1, ((state.feedAll first).2.feedAll second).2) := by
  induction first generalizing state with
  | nil => rfl
  | cons byte first ih => rw [List.cons_append, State.feedAll, ih, State.feedAll, List.append_assoc]

/-- The bytes of `text.encode("utf-8")`. -/
def encode (text : List Char) : List UInt8 := text.flatMap String.utf8EncodeChar

theorem feedAll_encode (text : List Char) : State.between.feedAll ((encode text).map UInt8.toNat) = (text, .between) := by
  induction text with
  | nil => rfl
  | cons c text ih =>
    rw [encode, List.flatMap_cons, List.map_append, feedAll_append, feed_encoded, ← encode, ih]
    rfl

/-- `bytes.decode("utf-8")`, which raises when a decoder that replaces would have to. -/
def decode (bytes : List UInt8) : Option (List Char) :=
  let read := State.between.feedAll (bytes.map UInt8.toNat)
  let text := read.1 ++ read.2.flush
  if encode text = bytes then some text else none

/-- What is decoded is the text whose encoding the bytes are. -/
theorem decode_some {bytes : List UInt8} {text : List Char} : decode bytes = some text ↔ encode text = bytes := by
  unfold decode
  dsimp only
  constructor
  · intro decoded
    split at decoded
    next same => cases decoded; exact same
    next => cases decoded
  · rintro rfl
    rw [feedAll_encode, State.flush, List.append_nil, if_pos rfl]

/-- `bytes.decode("latin-1")`, one character for each byte. -/
def latin1 (bytes : List UInt8) : List Char := bytes.map fun byte => Char.ofNat byte.toNat

theorem latin1_utf8EncodeChar {c : Char} (ascii : c.toNat ≤ 0x7f) : latin1 (String.utf8EncodeChar c) = [c] := by
  have bytes := encode_toNat c
  rw [if_pos ascii] at bytes
  have split : latin1 (String.utf8EncodeChar c) = ((String.utf8EncodeChar c).map UInt8.toNat).map Char.ofNat := by
    rw [List.map_map]
    rfl
  rw [split, bytes, List.map_singleton, Char.ofNat_toNat]

/-- ASCII reads the same in both encodings. -/
theorem latin1_encode {text : List Char} (ascii : ∀ c ∈ text, c.toNat ≤ 0x7f) : latin1 (encode text) = text := by
  induction text with
  | nil => rfl
  | cons c text ih =>
    have head := latin1_utf8EncodeChar (ascii c List.mem_cons_self)
    have tail := ih fun d member => ascii d (List.mem_cons_of_mem c member)
    rw [encode, List.flatMap_cons, latin1, List.map_append, ← encode, ← latin1, ← latin1, head, tail]
    rfl

end Foundation.Utf8
