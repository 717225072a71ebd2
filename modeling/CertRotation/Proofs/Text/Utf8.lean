import CertRotation.Text.Utf8

/-!
# Reading bytes as text

Two facts about `Utf8.pieces` carry everything that later modules need of it.

* `Utf8.pieces_append_plain` — a byte below `0x80` never continues a character, so a text is read
  on its two sides independently.  The separators of a path and the mark of a staged copy are such
  bytes, which is how the text of a path falls apart into the texts of its names.
* `Utf8.bytes_pieces` — no byte gets lost: the pieces spell the bytes they were read from.

From the second one, `Utf8.encode_of_decode?`: what could be read as text is spelled by that text
and by nothing else, and so is `Utf8.lossy` injective on such byte strings.  The other way round,
`Utf8.decode?_encode`: what spells a text can be read.
-/

set_option autoImplicit false

namespace CertRotation
namespace Utf8

/-! ## Sequences that have begun -/

/-- The bytes of a sequence that has begun agree with the number it has spelled so far, and only a
continuation byte may come next.  The number is bounded so that the last byte makes it a character
which needs as many bytes as there are. -/
structure Open.Sound (o : Open) : Prop where
  /-- The next byte is a continuation byte. -/
  low_le : 0x80 ≤ o.low.toNat
  high_le : o.high.toNat ≤ 0xBF
  /-- One of the six ways to be in the middle of a character. -/
  shape :
    (∃ a : UInt8, o.seen = [a] ∧ o.more = 0 ∧ 0xC2 ≤ a.toNat ∧ a.toNat < 0xE0 ∧
      o.code = a.toNat - 0xC0) ∨
    (∃ a : UInt8, o.seen = [a] ∧ o.more = 1 ∧ 0xE0 ≤ a.toNat ∧ a.toNat < 0xF0 ∧
      o.code = a.toNat - 0xE0 ∧ (a.toNat = 0xE0 → 0xA0 ≤ o.low.toNat) ∧
      (a.toNat = 0xED → o.high.toNat ≤ 0x9F)) ∨
    (∃ a : UInt8, o.seen = [a] ∧ o.more = 2 ∧ 0xF0 ≤ a.toNat ∧ a.toNat < 0xF5 ∧
      o.code = a.toNat - 0xF0 ∧ (a.toNat = 0xF0 → 0x90 ≤ o.low.toNat) ∧
      (a.toNat = 0xF4 → o.high.toNat ≤ 0x8F)) ∨
    (∃ a b : UInt8, o.seen = [a, b] ∧ o.more = 0 ∧ a.toNat = 0xE0 + o.code / 64 ∧
      b.toNat = 0x80 + o.code % 64 ∧ 32 ≤ o.code ∧ o.code < 1024 ∧
      (o.code < 864 ∨ 896 ≤ o.code)) ∨
    (∃ a b : UInt8, o.seen = [a, b] ∧ o.more = 1 ∧ a.toNat = 0xF0 + o.code / 64 ∧
      b.toNat = 0x80 + o.code % 64 ∧ 16 ≤ o.code ∧ o.code < 272) ∨
    (∃ a b c : UInt8, o.seen = [a, b, c] ∧ o.more = 0 ∧ a.toNat = 0xF0 + o.code / 4096 ∧
      b.toNat = 0x80 + o.code / 64 % 64 ∧ c.toNat = 0x80 + o.code % 64 ∧ 1024 ≤ o.code ∧
      o.code < 17408)

theorem toUInt8_eq {n : Nat} {a : UInt8} (h : a.toNat = n) : n.toUInt8 = a := by
  subst h
  simp

theorem toNat_charOfNat {n : Nat} (h : n.isValidChar) : (Char.ofNat n).toNat = n := by
  rw [Char.ofNat, dif_pos h]
  rfl

theorem start_sound {b : UInt8} {o : Open} (h : start b = .opens o) : o.Sound := by
  rw [start] at h
  split at h
  · cases h
  split at h
  · cases h
  rename_i hlow
  have hb : 0xC2 ≤ b.toNat := by simpa [UInt8.lt_iff_toNat_lt] using hlow
  split at h
  · rename_i hE0
    cases h
    exact ⟨by simp, by simp,
      .inl ⟨b, rfl, rfl, hb, by simpa [UInt8.lt_iff_toNat_lt] using hE0, rfl⟩⟩
  rename_i hE0
  split at h
  · rename_i hF0
    cases h
    have hE0' : 0xE0 ≤ b.toNat := by simpa [UInt8.lt_iff_toNat_lt] using hE0
    have hF0' : b.toNat < 0xF0 := by simpa [UInt8.lt_iff_toNat_lt] using hF0
    refine ⟨by simp only; split <;> decide, by simp only; split <;> decide,
      .inr (.inl ⟨b, rfl, rfl, hE0', hF0', rfl, fun e => ?_, fun e => ?_⟩)⟩
    · simp [show b = 0xE0 from UInt8.toNat_inj.1 e]
    · simp [show b = 0xED from UInt8.toNat_inj.1 e]
  rename_i hF0
  split at h
  · rename_i hF5
    cases h
    have hF0' : 0xF0 ≤ b.toNat := by simpa [UInt8.lt_iff_toNat_lt] using hF0
    have hF5' : b.toNat < 0xF5 := by simpa [UInt8.lt_iff_toNat_lt] using hF5
    refine ⟨by simp only; split <;> decide, by simp only; split <;> decide,
      .inr (.inr (.inl ⟨b, rfl, rfl, hF0', hF5', rfl, fun e => ?_, fun e => ?_⟩))⟩
    · simp [show b = 0xF0 from UInt8.toNat_inj.1 e]
    · simp [show b = 0xF4 from UInt8.toNat_inj.1 e]
  · cases h

/-- A sequence that goes on stays in agreement with its bytes. -/
theorem push_sound {o o' : Open} (ho : o.Sound) {b : UInt8} (hlow : o.low ≤ b) (hhigh : b ≤ o.high)
    (h : o.push b = .inl o') : o'.Sound ∧ o'.seen = o.seen ++ [b] := by
  obtain ⟨hl, hh, hs⟩ := ho
  have h1 := UInt8.le_iff_toNat_le.1 hlow
  have h2 := UInt8.le_iff_toNat_le.1 hhigh
  rw [Open.push] at h
  split at h
  · cases h
  · rename_i n hmore
    cases h
    refine ⟨⟨by simp, by simp, ?_⟩, rfl⟩
    rcases hs with ⟨a, hseen, hm, -⟩ | ⟨a, hseen, hm, ha, ha', hcode, hE0, hED⟩ |
        ⟨a, hseen, hm, ha, ha', hcode, hF0, hF4⟩ | ⟨a, c, -, hm, -⟩ |
        ⟨a, c, hseen, hm, ha, hc, hlo, hhi⟩ | ⟨a, c, d, -, hm, -⟩
    · omega
    · refine .inr (.inr (.inr (.inl ⟨a, b, by simp [hseen], by simp; omega, ?_⟩)))
      simp only
      omega
    · refine .inr (.inr (.inr (.inr (.inl ⟨a, b, by simp [hseen], by simp; omega, ?_⟩))))
      simp only
      omega
    · omega
    · refine .inr (.inr (.inr (.inr (.inr ⟨a, c, b, by simp [hseen], by simp; omega, ?_⟩))))
      simp only
      omega
    · omega

/-- A sequence that is complete spells its character as every text does. -/
theorem push_char {o : Open} (ho : o.Sound) {b : UInt8} (hlow : o.low ≤ b) (hhigh : b ≤ o.high)
    {c : Char} (h : o.push b = .inr c) : encodeChar c = o.seen ++ [b] := by
  obtain ⟨hl, hh, hs⟩ := ho
  have h1 := UInt8.le_iff_toNat_le.1 hlow
  have h2 := UInt8.le_iff_toNat_le.1 hhigh
  rw [Open.push] at h
  split at h
  · rename_i hmore
    cases h
    rcases hs with ⟨a, hseen, hm, ha, ha', hcode⟩ | ⟨a, -, hm, -⟩ | ⟨a, -, hm, -⟩ |
        ⟨a, d, hseen, hm, ha, hd, hlo, hhi, hsur⟩ | ⟨a, d, -, hm, -⟩ |
        ⟨a, d, e, hseen, hm, ha, hd, he, hlo, hhi⟩
    · rw [encodeChar, toNat_charOfNat (.inl (by omega)), if_neg (by omega), if_pos (by omega),
        hseen]
      rw [toUInt8_eq (a := a) (by omega), toUInt8_eq (a := b) (by omega)]
      rfl
    · omega
    · omega
    · rw [encodeChar, toNat_charOfNat (by unfold Nat.isValidChar; omega), if_neg (by omega),
        if_neg (by omega), if_pos (by omega), hseen]
      rw [toUInt8_eq (a := a) (by omega), toUInt8_eq (a := d) (by omega),
        toUInt8_eq (a := b) (by omega)]
      rfl
    · omega
    · rw [encodeChar, toNat_charOfNat (.inr (by omega)), if_neg (by omega), if_neg (by omega),
        if_neg (by omega), hseen]
      rw [toUInt8_eq (a := a) (by omega), toUInt8_eq (a := d) (by omega),
        toUInt8_eq (a := e) (by omega), toUInt8_eq (a := b) (by omega)]
      rfl
  · cases h

/-! ## No byte gets lost -/

/-- The bytes that a piece was read from. -/
def Piece.bytes : Piece → Bytes
  | .char c => encodeChar c
  | .broken bytes => bytes

theorem encodeChar_start {b : UInt8} {c : Char} (h : start b = .whole c) : encodeChar c = [b] := by
  rw [start] at h
  split at h
  · rename_i hb
    cases h
    have hb' : b.toNat < 0x80 := UInt8.lt_iff_toNat_lt.1 hb
    rw [encodeChar, toNat_charOfNat (.inl (by omega)), if_pos hb', toUInt8_eq rfl]
  · repeat' split at h
    all_goals cases h

theorem seen_start {b : UInt8} {o : Open} (h : start b = .opens o) : o.seen = [b] := by
  rw [start] at h
  repeat' split at h
  all_goals cases h
  all_goals rfl

theorem bytes_piecesFrom (o : Option Open) (bytes : Bytes) (ho : ∀ x ∈ o, x.Sound) :
    (piecesFrom o bytes).flatMap Piece.bytes = o.elim [] Open.seen ++ bytes := by
  fun_induction piecesFrom o bytes with
  | case1 => rfl
  | case2 o => simp [Piece.bytes]
  | case3 b bs c hb ih => simp [Piece.bytes, encodeChar_start hb, ih]
  | case4 b bs o hb ih => simpa [seen_start hb] using ih (by simpa using start_sound hb)
  | case5 b bs hb ih => simp [Piece.bytes, ih]
  | case6 o b bs hin o' hpush ih =>
    obtain ⟨hs, hseen⟩ := push_sound (ho o rfl) hin.1 hin.2 hpush
    simpa [hseen] using ih (by simpa using hs)
  | case7 o b bs hin c hpush ih =>
    simp [Piece.bytes, push_char (ho o rfl) hin.1 hin.2 hpush, ih]
  | case8 o b bs hin ihNone ihSome =>
    cases hb : start b with
    | whole c => simp [Piece.bytes, encodeChar_start hb, ihNone]
    | opens o' =>
      simpa [Piece.bytes, seen_start hb] using ihSome o' (by simpa using start_sound hb)
    | nothing => simp [Piece.bytes, ihNone]

/-- **The pieces of a byte string spell it.** -/
theorem bytes_pieces (bytes : Bytes) : (pieces bytes).flatMap Piece.bytes = bytes := by
  simpa [pieces] using bytes_piecesFrom none bytes (by simp)

theorem mapM_char?_eq_some {ps : List Piece} {text : List Char}
    (h : ps.mapM Piece.char? = some text) : ps = text.map Piece.char := by
  induction ps generalizing text with
  | nil =>
    cases h
    rfl
  | cons p ps ih =>
    rw [List.mapM_cons] at h
    cases p with
    | broken bytes => cases h
    | char c =>
      obtain ⟨rest, hrest, rfl⟩ : ∃ rest, ps.mapM Piece.char? = some rest ∧ c :: rest = text := by
        simpa [Piece.char?, Option.bind_eq_some_iff] using h
      rw [ih hrest, List.map_cons]

/-- Bytes that can be read as text are read as its characters. -/
theorem pieces_of_decode? {bytes : Bytes} {text : List Char} (h : decode? bytes = some text) :
    pieces bytes = text.map Piece.char :=
  mapM_char?_eq_some h

/-- What could be read as text is spelled by it. -/
theorem encode_of_decode? {bytes : Bytes} {text : List Char} (h : decode? bytes = some text) :
    encode text = bytes := by
  have hb := bytes_pieces bytes
  rw [pieces_of_decode? h, List.flatMap_map] at hb
  exact hb

/-- Bytes that can be read as text are shown as that text. -/
theorem lossy_of_decode? {bytes : Bytes} {text : List Char} (h : decode? bytes = some text) :
    lossy bytes = text := by
  rw [lossy, pieces_of_decode? h, List.map_map]
  exact List.map_id text

/-- Bytes that are shown without replacements are spelled by the text that they are shown as. -/
theorem encode_lossy {bytes : Bytes} (h : replacement ∉ lossy bytes) :
    encode (lossy bytes) = bytes := by
  have hpieces : ∀ ps : List Piece, replacement ∉ ps.map Piece.shown →
      (ps.map Piece.shown).flatMap encodeChar = ps.flatMap Piece.bytes := by
    intro ps hps
    induction ps with
    | nil => rfl
    | cons p ps ih =>
      rw [List.map_cons, List.mem_cons, not_or] at hps
      rw [List.map_cons, List.flatMap_cons, List.flatMap_cons, ih hps.2]
      cases p with
      | char c => rfl
      | broken bytes => exact absurd rfl hps.1
  rw [encode, lossy, hpieces _ h]
  exact bytes_pieces bytes

/-! ## What is written can be read -/

theorem exists_toUInt8 {n : Nat} (h : n < 256) : ∃ b : UInt8, n.toUInt8 = b ∧ b.toNat = n :=
  ⟨n.toUInt8, rfl, Nat.mod_eq_of_lt h⟩

theorem start_two {b : UInt8} (hlow : 0xC2 ≤ b.toNat) (hhigh : b.toNat < 0xE0) :
    start b = .opens ⟨[b], b.toNat - 0xC0, 0x80, 0xBF, 0⟩ := by
  rw [start, if_neg (UInt8.not_lt.2 (UInt8.le_iff_toNat_le.2 (by simp; omega))),
    if_neg (UInt8.not_lt.2 (UInt8.le_iff_toNat_le.2 (by simpa using hlow))),
    if_pos (UInt8.lt_iff_toNat_lt.2 (by simpa using hhigh))]

theorem start_three {b : UInt8} (hlow : 0xE0 ≤ b.toNat) (hhigh : b.toNat < 0xF0) :
    start b = .opens ⟨[b], b.toNat - 0xE0, if b = 0xE0 then 0xA0 else 0x80,
      if b = 0xED then 0x9F else 0xBF, 1⟩ := by
  rw [start, if_neg (UInt8.not_lt.2 (UInt8.le_iff_toNat_le.2 (by simp; omega))),
    if_neg (UInt8.not_lt.2 (UInt8.le_iff_toNat_le.2 (by simp; omega))),
    if_neg (UInt8.not_lt.2 (UInt8.le_iff_toNat_le.2 (by simpa using hlow))),
    if_pos (UInt8.lt_iff_toNat_lt.2 (by simpa using hhigh))]

theorem start_four {b : UInt8} (hlow : 0xF0 ≤ b.toNat) (hhigh : b.toNat < 0xF5) :
    start b = .opens ⟨[b], b.toNat - 0xF0, if b = 0xF0 then 0x90 else 0x80,
      if b = 0xF4 then 0x8F else 0xBF, 2⟩ := by
  rw [start, if_neg (UInt8.not_lt.2 (UInt8.le_iff_toNat_le.2 (by simp; omega))),
    if_neg (UInt8.not_lt.2 (UInt8.le_iff_toNat_le.2 (by simp; omega))),
    if_neg (UInt8.not_lt.2 (UInt8.le_iff_toNat_le.2 (by simp; omega))),
    if_neg (UInt8.not_lt.2 (UInt8.le_iff_toNat_le.2 (by simpa using hlow))),
    if_pos (UInt8.lt_iff_toNat_lt.2 (by simpa using hhigh))]

/-- A byte in the range of the open sequence goes on with it. -/
theorem piecesFrom_push {o : Open} {b : UInt8} {rest : Bytes} (hlow : o.low.toNat ≤ b.toNat)
    (hhigh : b.toNat ≤ o.high.toNat) :
    piecesFrom (some o) (b :: rest) =
      match o.push b with
      | .inl o' => piecesFrom (some o') rest
      | .inr c => .char c :: piecesFrom none rest := by
  have hin : o.low ≤ b ∧ b ≤ o.high :=
    ⟨UInt8.le_iff_toNat_le.2 hlow, UInt8.le_iff_toNat_le.2 hhigh⟩
  cases hpush : o.push b with
  | inl o' => rw [piecesFrom, if_pos hin, hpush]
  | inr c => rw [piecesFrom, if_pos hin, hpush]

theorem piecesFrom_opens {b : UInt8} {o : Open} (h : start b = .opens o) (rest : Bytes) :
    piecesFrom none (b :: rest) = piecesFrom (some o) rest := by
  rw [piecesFrom, h]

/-- **What spells a character is read as that character.** -/
theorem piecesFrom_encodeChar (c : Char) (rest : Bytes) :
    piecesFrom none (encodeChar c ++ rest) = .char c :: piecesFrom none rest := by
  have hvalid : c.toNat < 0xD800 ∨ 0xDFFF < c.toNat ∧ c.toNat < 0x110000 := c.valid
  have hc : ∀ n, n = c.toNat → Char.ofNat n = c := fun n h => by rw [h, Char.ofNat_toNat]
  rw [encodeChar]
  split
  · rename_i h1
    obtain ⟨b, hb, hb'⟩ := exists_toUInt8 (n := c.toNat) (by omega)
    rw [hb, List.singleton_append, piecesFrom, start,
      if_pos (UInt8.lt_iff_toNat_lt.2 (by simpa [hb'] using h1))]
    dsimp only
    rw [hc _ hb']
  rename_i h1
  split
  · rename_i h2
    obtain ⟨a, ha, ha'⟩ := exists_toUInt8 (n := 0xC0 + c.toNat / 64) (by omega)
    obtain ⟨b, hb, hb'⟩ := exists_toUInt8 (n := 0x80 + c.toNat % 64) (by omega)
    rw [ha, hb, List.cons_append, List.singleton_append,
      piecesFrom_opens (start_two (by omega) (by omega)),
      piecesFrom_push (by simp; omega) (by simp; omega)]
    show Piece.char (Char.ofNat ((a.toNat - 0xC0) * 64 + b.toNat % 64)) :: _ = _
    rw [hc _ (by omega)]
  rename_i h2
  split
  · rename_i h3
    obtain ⟨a, ha, ha'⟩ := exists_toUInt8 (n := 0xE0 + c.toNat / 4096) (by omega)
    obtain ⟨b, hb, hb'⟩ := exists_toUInt8 (n := 0x80 + c.toNat / 64 % 64) (by omega)
    obtain ⟨d, hd, hd'⟩ := exists_toUInt8 (n := 0x80 + c.toNat % 64) (by omega)
    rw [ha, hb, hd, List.cons_append, List.cons_append, List.singleton_append,
      piecesFrom_opens (start_three (by omega) (by omega)), piecesFrom_push]
    · show piecesFrom (some ⟨[a, b], (a.toNat - 0xE0) * 64 + b.toNat % 64, 0x80, 0xBF, 0⟩) _ = _
      rw [piecesFrom_push (by simp; omega) (by simp; omega)]
      show Piece.char (Char.ofNat
        (((a.toNat - 0xE0) * 64 + b.toNat % 64) * 64 + d.toNat % 64)) :: _ = _
      rw [hc _ (by omega)]
    · dsimp only
      split
      · rename_i e
        subst e
        simp at ha' ⊢
        omega
      · simp
        omega
    · dsimp only
      split
      · rename_i e
        subst e
        simp at ha' ⊢
        omega
      · simp
        omega
  · rename_i h3
    obtain ⟨a, ha, ha'⟩ := exists_toUInt8 (n := 0xF0 + c.toNat / 262144) (by omega)
    obtain ⟨b, hb, hb'⟩ := exists_toUInt8 (n := 0x80 + c.toNat / 4096 % 64) (by omega)
    obtain ⟨d, hd, hd'⟩ := exists_toUInt8 (n := 0x80 + c.toNat / 64 % 64) (by omega)
    obtain ⟨e, he, he'⟩ := exists_toUInt8 (n := 0x80 + c.toNat % 64) (by omega)
    rw [ha, hb, hd, he, List.cons_append, List.cons_append, List.cons_append,
      List.singleton_append, piecesFrom_opens (start_four (by omega) (by omega)), piecesFrom_push]
    · show piecesFrom (some ⟨[a, b], (a.toNat - 0xF0) * 64 + b.toNat % 64, 0x80, 0xBF, 1⟩) _ = _
      rw [piecesFrom_push (by simp; omega) (by simp; omega)]
      show piecesFrom (some ⟨[a, b, d], ((a.toNat - 0xF0) * 64 + b.toNat % 64) * 64 + d.toNat % 64,
        0x80, 0xBF, 0⟩) _ = _
      rw [piecesFrom_push (by simp; omega) (by simp; omega)]
      show Piece.char (Char.ofNat ((((a.toNat - 0xF0) * 64 + b.toNat % 64) * 64 + d.toNat % 64) * 64
        + e.toNat % 64)) :: _ = _
      rw [hc _ (by omega)]
    · dsimp only
      split
      · rename_i hfirst
        subst hfirst
        simp at ha' ⊢
        omega
      · simp
        omega
    · dsimp only
      split
      · rename_i hfirst
        subst hfirst
        simp at ha' ⊢
        omega
      · simp
        omega

theorem mapM_char? (text : List Char) : (text.map Piece.char).mapM Piece.char? = some text := by
  induction text with
  | nil => rfl
  | cons c text ih =>
    rw [List.map_cons, List.mapM_cons, ih]
    rfl

/-- **What spells a text is read as that text.** -/
theorem decode?_encode (text : List Char) : decode? (encode text) = some text := by
  have hpieces : pieces (encode text) = text.map Piece.char := by
    induction text with
    | nil => rfl
    | cons c text ih =>
      rw [encode, List.flatMap_cons, pieces, piecesFrom_encodeChar, List.map_cons]
      exact congrArg (Piece.char c :: ·) ih
  rw [decode?, hpieces, mapM_char?]

theorem decode?_eq_some_iff {bytes : Bytes} {text : List Char} :
    decode? bytes = some text ↔ bytes = encode text :=
  ⟨fun h => (encode_of_decode? h).symm, fun h => h ▸ decode?_encode text⟩

/-! ## Plain bytes divide a text -/

/-- A byte that is a character of its own and never part of another one. -/
def IsPlain (b : UInt8) : Prop := b < 0x80

theorem start_plain {b : UInt8} (hb : IsPlain b) : start b = .whole (Char.ofNat b.toNat) :=
  if_pos hb

theorem piecesFrom_append_plain {b : UInt8} (hb : IsPlain b) (o : Option Open) (bytes rest : Bytes)
    (ho : ∀ x ∈ o, x.Sound) :
    piecesFrom o (bytes ++ b :: rest) =
      piecesFrom o bytes ++ .char (Char.ofNat b.toNat) :: pieces rest := by
  fun_induction piecesFrom o bytes with
  | case1 => simp [piecesFrom, start_plain hb, pieces]
  | case2 o =>
    have hlow : ¬ o.low ≤ b := by
      have h1 := (ho o rfl).low_le
      have h2 : b.toNat < 0x80 := UInt8.lt_iff_toNat_lt.1 hb
      rw [UInt8.le_iff_toNat_le]
      omega
    simp [piecesFrom, start_plain hb, pieces, hlow]
  | case3 b bs c hb ih => simp [piecesFrom, hb, ih]
  | case4 b bs o hb ih => simpa [piecesFrom, hb] using ih (by simpa using start_sound hb)
  | case5 b bs hb ih => simp [piecesFrom, hb, ih]
  | case6 o b bs hin o' hpush ih =>
    have hs := (push_sound (ho o rfl) hin.1 hin.2 hpush).1
    simpa [piecesFrom, hin, hpush] using ih (by simpa using hs)
  | case7 o b bs hin c hpush ih => simp [piecesFrom, hin, hpush, ih]
  | case8 o b bs hin ihNone ihSome =>
    cases hb : start b with
    | whole c => simp [piecesFrom, hin, hb, ihNone]
    | opens o' => simpa [piecesFrom, hin, hb] using ihSome o' (by simpa using start_sound hb)
    | nothing => simp [piecesFrom, hin, hb, ihNone]

/-- **A plain byte divides a text**: what stands before it and what stands after it are read
independently. -/
theorem pieces_append_plain {b : UInt8} (hb : IsPlain b) (bytes rest : Bytes) :
    pieces (bytes ++ b :: rest) = pieces bytes ++ .char (Char.ofNat b.toNat) :: pieces rest :=
  piecesFrom_append_plain hb none bytes rest (by simp)

theorem lossy_append_plain {b : UInt8} (hb : IsPlain b) (bytes rest : Bytes) :
    lossy (bytes ++ b :: rest) = lossy bytes ++ Char.ofNat b.toNat :: lossy rest := by
  simp [lossy, pieces_append_plain hb, Piece.shown]

theorem decode?_append_plain {b : UInt8} (hb : IsPlain b) (bytes rest : Bytes) :
    decode? (bytes ++ b :: rest) =
      (decode? bytes).bind fun s => (decode? rest).map fun t => s ++ Char.ofNat b.toNat :: t := by
  rw [decode?, pieces_append_plain hb, List.mapM_append, List.mapM_cons]
  simp only [decode?, Piece.char?]
  cases (pieces bytes).mapM Piece.char? <;> cases (pieces rest).mapM Piece.char? <;> rfl

end Utf8
end CertRotation
