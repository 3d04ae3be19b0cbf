import Mathlib.Data.Nat.Notation
import Mathlib.Tactic.Ring
import Mathlib.Data.List.Basic

/-!
# Byte codecs

A codec writes a value as bytes and reads one back from the front of a byte string, handing on
what it did not read. The law that makes it a codec is carried by the structure: what was written
is read back, whatever follows it. A format that cannot carry every value (a length prefix has a
largest length) says which ones it can, and the law is asked for those only.

The combinators are the usual ones: fixed-width little-endian numbers, pairs, tagged options and
length-prefixed sequences. A decoder stops at the first thing it cannot read, so a length prefix
that promises more elements than there are bytes is an error and not a long loop.

## Main definitions

* `Codec` — a codec and its law
* `Codec.le` — numbers in `n` little-endian bytes
* `Codec.prod`, `Codec.map`, `Codec.option`, `Codec.seq` — the combinators
* `Codec.Exact` — nothing but what was written is read

A decoder may still accept bytes that no value is written as. `Codec.Exact` says that it does not,
and that the only error more bytes can mend is that the bytes ran out; the combinators keep it.

## Main results

* `Codec.decode_encode_nil` — the round trip on exactly the bytes written
* `Codec.length_encode_le`, `Codec.length_encode_seq` — the sizes
* `Codec.Exact.decode_eq_ok_iff`, `Codec.Exact.decode_of_isPrefix` — what an exact codec reads
-/

namespace Interaction

/-- Why a byte string could not be read. -/
inductive DecodeError
  /-- The bytes ran out. -/
  | eof
  /-- The tag of an option is neither `0` nor `1`. -/
  | invalidTag (tag : UInt8)
  deriving DecidableEq, Repr

/-- A byte format for the values of `α` that satisfy `Fits`. -/
structure Codec (α : Type) where
  /-- Write a value. -/
  encode : α → List UInt8
  /-- Read a value, and hand on the bytes that follow it. -/
  decode : List UInt8 → Except DecodeError (α × List UInt8)
  /-- The values the format can carry. -/
  Fits : α → Prop
  /-- What was written is read back. -/
  decode_encode : ∀ a rest, Fits a → decode (encode a ++ rest) = .ok (a, rest)

namespace Codec

variable {α β : Type}

theorem decode_encode_nil (c : Codec α) {a : α} (h : c.Fits a) :
    c.decode (c.encode a) = .ok (a, []) := by
  simpa using c.decode_encode a [] h

/-! ### Little-endian numbers -/

/-- The `n` low bytes of `v`, least significant first. -/
def leBytes : ℕ → ℕ → List UInt8
  | 0, _ => []
  | n + 1, v => UInt8.ofNat (v % 256) :: leBytes n (v / 256)

/-- The number whose bytes, least significant first, are `bs`. -/
def leValue : List UInt8 → ℕ
  | [] => 0
  | b :: bs => b.toNat + 256 * leValue bs

@[simp] theorem length_leBytes (n v : ℕ) : (leBytes n v).length = n := by
  induction n generalizing v with
  | zero => rfl
  | succ n ih => simp [leBytes, ih]

theorem leValue_leBytes {n v : ℕ} (h : v < 256 ^ n) : leValue (leBytes n v) = v := by
  induction n generalizing v with
  | zero =>
    have hv : v = 0 := by simpa using h
    simp [leBytes, leValue, hv]
  | succ n ih =>
    have hdiv : v / 256 < 256 ^ n := by
      rw [Nat.pow_succ] at h
      exact Nat.div_lt_of_lt_mul (by omega)
    have hmod : (UInt8.ofNat (v % 256)).toNat = v % 256 := by
      simp
    rw [leBytes, leValue, ih hdiv, hmod]
    omega

theorem leValue_lt (bs : List UInt8) : leValue bs < 256 ^ bs.length := by
  induction bs with
  | nil => simp [leValue]
  | cons b bs ih =>
    have hb : b.toNat < 256 := b.toNat_lt
    rw [leValue, List.length_cons, Nat.pow_succ]
    omega

theorem leBytes_leValue (bs : List UInt8) : leBytes bs.length (leValue bs) = bs := by
  induction bs with
  | nil => rfl
  | cons b bs ih =>
    have hb : b.toNat < 256 := b.toNat_lt
    have hmod : (b.toNat + 256 * leValue bs) % 256 = b.toNat := by omega
    have hdiv : (b.toNat + 256 * leValue bs) / 256 = leValue bs := by omega
    rw [List.length_cons, leValue, leBytes, hmod, hdiv, ih, UInt8.ofNat_toNat]

/-- Numbers below `256 ^ n` in `n` little-endian bytes. -/
def le (n : ℕ) : Codec ℕ where
  encode := leBytes n
  decode bs := if bs.length < n then .error .eof else .ok (leValue (bs.take n), bs.drop n)
  Fits v := v < 256 ^ n
  decode_encode v rest h := by
    have hlen : ¬ (leBytes n v ++ rest).length < n := by simp
    rw [if_neg hlen, List.take_left' (length_leBytes n v), List.drop_left' (length_leBytes n v),
      leValue_leBytes h]

@[simp] theorem length_encode_le (n v : ℕ) : ((le n).encode v).length = n := length_leBytes n v

/-! ### Combinators -/

/-- Carry a codec along a map with a left inverse. -/
def map (c : Codec α) (f : β → α) (g : α → β) (h : ∀ b, g (f b) = b) : Codec β where
  encode b := c.encode (f b)
  decode bs := (c.decode bs).map fun r => (g r.1, r.2)
  Fits b := c.Fits (f b)
  decode_encode b rest hb := by rw [c.decode_encode _ _ hb, Except.map, h]

/-- One value after the other. -/
def prod (c : Codec α) (d : Codec β) : Codec (α × β) where
  encode p := c.encode p.1 ++ d.encode p.2
  decode bs := do
    let (a, rest) ← c.decode bs
    let (b, rest) ← d.decode rest
    pure ((a, b), rest)
  Fits p := c.Fits p.1 ∧ d.Fits p.2
  decode_encode p rest h := by
    rw [List.append_assoc, c.decode_encode _ _ h.1]
    change (d.decode (d.encode p.2 ++ rest)).bind _ = _
    rw [d.decode_encode _ _ h.2]
    rfl

/-- An option: the tag `0` for `none`, the tag `1` and the value for `some`. -/
def option (c : Codec α) : Codec (Option α) where
  encode
    | none => [0]
    | some a => 1 :: c.encode a
  decode
    | [] => .error .eof
    | tag :: rest =>
      if tag = 0 then .ok (none, rest)
      else if tag = 1 then (c.decode rest).map fun r => (some r.1, r.2)
      else .error (.invalidTag tag)
  Fits o := ∀ a ∈ o, c.Fits a
  decode_encode o rest h := by
    cases o with
    | none => rfl
    | some a =>
      have := c.decode_encode a rest (h a rfl)
      simp [this, Except.map]

/-- Read `n` values one after the other. -/
def decodeMany (c : Codec α) : ℕ → List UInt8 → Except DecodeError (List α × List UInt8)
  | 0, bs => .ok ([], bs)
  | n + 1, bs =>
    match c.decode bs with
    | .error e => .error e
    | .ok (a, rest) => (decodeMany c n rest).map fun r => (a :: r.1, r.2)

theorem decodeMany_encode (c : Codec α) (as : List α) (rest : List UInt8)
    (h : ∀ a ∈ as, c.Fits a) :
    c.decodeMany as.length ((as.map c.encode).flatten ++ rest) = .ok (as, rest) := by
  induction as with
  | nil => rfl
  | cons a as ih =>
    have ha : c.Fits a := h a (List.mem_cons_self ..)
    have ih := ih fun b hb => h b (List.mem_cons_of_mem a hb)
    simp only [List.length_cons, List.map_cons, List.flatten_cons, List.append_assoc, decodeMany,
      c.decode_encode a _ ha, ih, Except.map]

/-- A sequence: its length in eight little-endian bytes, then its elements. -/
def seq (c : Codec α) : Codec (List α) where
  encode as := (le 8).encode as.length ++ (as.map c.encode).flatten
  decode bs := do
    let (n, rest) ← (le 8).decode bs
    c.decodeMany n rest
  Fits as := as.length < 256 ^ 8 ∧ ∀ a ∈ as, c.Fits a
  decode_encode as rest h := by
    rw [List.append_assoc, (le 8).decode_encode _ _ h.1]
    exact c.decodeMany_encode as rest h.2

theorem length_encode_seq {c : Codec α} {w : ℕ} (hw : ∀ a, (c.encode a).length = w)
    (as : List α) : (c.seq.encode as).length = 8 + w * as.length := by
  have hflat : ((as.map c.encode).flatten).length = w * as.length := by
    induction as with
    | nil => rfl
    | cons a as ih =>
      rw [List.map_cons, List.flatten_cons, List.length_append, ih, hw, List.length_cons]
      ring
  change ((le 8).encode as.length ++ (as.map c.encode).flatten).length = _
  rw [List.length_append, hflat, length_encode_le]

/-! ### Exact codecs -/

/-- What is read was written, and more bytes mend no error but `eof`. -/
structure Exact (c : Codec α) : Prop where
  /-- The bytes that are read are those of the value. -/
  sound : ∀ {bs rest a}, c.decode bs = .ok (a, rest) → c.Fits a ∧ bs = c.encode a ++ rest
  /-- An error that is not `eof` is final. -/
  final : ∀ {bs e} (more), c.decode bs = .error e → e ≠ .eof → c.decode (bs ++ more) = .error e

namespace Exact

variable {c : Codec α} {d : Codec β} {a : α} {bs rest : List UInt8}

/-- **What an exact codec reads.** -/
theorem decode_eq_ok_iff (hc : c.Exact) :
    c.decode bs = .ok (a, rest) ↔ c.Fits a ∧ bs = c.encode a ++ rest := by
  refine ⟨hc.sound, ?_⟩
  rintro ⟨ha, rfl⟩
  exact c.decode_encode a rest ha

/-- **A part of an encoding** is read as nothing: the bytes ran out. -/
theorem decode_of_isPrefix (hc : c.Exact) (ha : c.Fits a) (hbs : bs <+: c.encode a)
    (hne : bs ≠ c.encode a) : c.decode bs = .error .eof := by
  obtain ⟨more, hmore⟩ := hbs
  have hall := c.decode_encode_nil ha
  rw [← hmore] at hall
  cases hread : c.decode bs with
  | error e =>
    by_contra he
    have hstays := hc.final more hread fun h => he (by rw [h])
    rw [hall] at hstays
    cases hstays
  | ok r =>
    obtain ⟨b, rest⟩ := r
    obtain ⟨hb, rfl⟩ := hc.sound hread
    rw [List.append_assoc, c.decode_encode b _ hb] at hall
    obtain ⟨rfl, hnil⟩ := Prod.mk.inj (Except.ok.inj hall)
    obtain ⟨rfl, -⟩ := List.append_eq_nil_iff.mp hnil
    exact absurd (List.append_nil _) hne

theorem le (n : ℕ) : (Codec.le n).Exact where
  sound {bs rest v} h := by
    change (if bs.length < n then _ else _) = _ at h
    split at h
    · cases h
    next hlen =>
      cases h
      have htake : (bs.take n).length = n := List.length_take_of_le (Nat.le_of_not_lt hlen)
      have hlt := leValue_lt (bs.take n)
      have hback := leBytes_leValue (bs.take n)
      rw [htake] at hlt hback
      refine ⟨hlt, ?_⟩
      change bs = leBytes n (leValue (bs.take n)) ++ bs.drop n
      rw [hback, List.take_append_drop]
  final {bs e} more h he := by
    change (if bs.length < n then _ else _) = _ at h
    split at h
    · cases h
      exact absurd rfl he
    · cases h

theorem map (hc : c.Exact) (f : β → α) (g : α → β) (h : ∀ b, g (f b) = b)
    (hf : ∀ a, c.Fits a → f (g a) = a) : (c.map f g h).Exact where
  sound {bs rest b} hread := by
    change (c.decode bs).map _ = _ at hread
    cases hdec : c.decode bs with
    | error e => rw [hdec] at hread; cases hread
    | ok r =>
      obtain ⟨a, rest⟩ := r
      rw [hdec] at hread
      cases hread
      obtain ⟨ha, rfl⟩ := hc.sound hdec
      change c.Fits (f (g a)) ∧ _ = c.encode (f (g a)) ++ _
      rw [hf a ha]
      exact ⟨ha, rfl⟩
  final {bs e} more hread he := by
    change (c.decode bs).map _ = _ at hread
    cases hdec : c.decode bs with
    | ok r => rw [hdec] at hread; cases hread
    | error e =>
      rw [hdec] at hread
      cases hread
      change (c.decode (bs ++ more)).map _ = _
      rw [hc.final more hdec he]
      rfl

/-- One value after the other: either the first cannot be read, or the second cannot. -/
theorem prod (hc : c.Exact) (hd : d.Exact) : (c.prod d).Exact where
  sound {bs rest p} hread := by
    change (c.decode bs).bind _ = _ at hread
    cases hfst : c.decode bs with
    | error e => rw [hfst] at hread; cases hread
    | ok r =>
      obtain ⟨a, rest₁⟩ := r
      rw [hfst] at hread
      change (d.decode rest₁).bind _ = _ at hread
      cases hsnd : d.decode rest₁ with
      | error e => rw [hsnd] at hread; cases hread
      | ok r =>
        obtain ⟨b, rest₂⟩ := r
        rw [hsnd] at hread
        cases hread
        obtain ⟨ha, rfl⟩ := hc.sound hfst
        obtain ⟨hb, rfl⟩ := hd.sound hsnd
        exact ⟨⟨ha, hb⟩, (List.append_assoc _ _ _).symm⟩
  final {bs e} more hread he := by
    change (c.decode bs).bind _ = _ at hread
    change (c.decode (bs ++ more)).bind _ = _
    cases hfst : c.decode bs with
    | error e =>
      rw [hfst] at hread
      cases hread
      rw [hc.final more hfst he]
      rfl
    | ok r =>
      obtain ⟨a, rest₁⟩ := r
      rw [hfst] at hread
      change (d.decode rest₁).bind _ = _ at hread
      obtain ⟨ha, rfl⟩ := hc.sound hfst
      rw [List.append_assoc, c.decode_encode a _ ha]
      change (d.decode (rest₁ ++ more)).bind _ = _
      cases hsnd : d.decode rest₁ with
      | ok r => rw [hsnd] at hread; cases hread
      | error e =>
        rw [hsnd] at hread
        cases hread
        rw [hd.final more hsnd he]
        rfl

theorem option (hc : c.Exact) : c.option.Exact where
  sound {bs rest o} hread := by
    cases bs with
    | nil => cases hread
    | cons tag bs =>
      change (if tag = 0 then _ else if tag = 1 then _ else _) = _ at hread
      split at hread
      next htag =>
        cases hread
        exact ⟨nofun, by rw [htag]; rfl⟩
      · split at hread
        next htag =>
          cases hdec : c.decode bs with
          | error e => rw [hdec] at hread; cases hread
          | ok r =>
            obtain ⟨a, rest⟩ := r
            rw [hdec] at hread
            cases hread
            obtain ⟨ha, rfl⟩ := hc.sound hdec
            refine ⟨?_, by rw [htag]; rfl⟩
            rintro _ ⟨⟩
            exact ha
        · cases hread
  final {bs e} more hread he := by
    cases bs with
    | nil => cases hread; exact absurd rfl he
    | cons tag bs =>
      change (if tag = 0 then _ else if tag = 1 then _ else _) = _ at hread
      change (if tag = 0 then _ else if tag = 1 then (c.decode (bs ++ more)).map _ else _) = _
      split at hread
      · cases hread
      next hzero =>
        rw [if_neg hzero]
        split at hread
        next hone =>
          rw [if_pos hone]
          cases hdec : c.decode bs with
          | ok r => rw [hdec] at hread; cases hread
          | error e =>
            rw [hdec] at hread
            cases hread
            rw [hc.final more hdec he]
            rfl
        next hone =>
          rw [if_neg hone]
          exact hread

theorem sound_decodeMany (hc : c.Exact) {n : ℕ} {as : List α}
    (hread : c.decodeMany n bs = .ok (as, rest)) :
    as.length = n ∧ (∀ a ∈ as, c.Fits a) ∧ bs = (as.map c.encode).flatten ++ rest := by
  induction n generalizing bs as with
  | zero => cases hread; exact ⟨rfl, nofun, rfl⟩
  | succ n ih =>
    rw [decodeMany] at hread
    cases hdec : c.decode bs with
    | error e => rw [hdec] at hread; cases hread
    | ok r =>
      obtain ⟨a, rest₁⟩ := r
      rw [hdec] at hread
      cases hmany : c.decodeMany n rest₁ with
      | error e => simp only [hmany] at hread; cases hread
      | ok r =>
        obtain ⟨as', rest₂⟩ := r
        simp only [hmany] at hread
        cases hread
        obtain ⟨ha, rfl⟩ := hc.sound hdec
        obtain ⟨rfl, has, rfl⟩ := ih hmany
        refine ⟨rfl, List.forall_mem_cons.mpr ⟨ha, has⟩, ?_⟩
        rw [List.map_cons, List.flatten_cons, List.append_assoc]

theorem final_decodeMany (hc : c.Exact) {n : ℕ} {e : DecodeError} (more : List UInt8)
    (hread : c.decodeMany n bs = .error e) (he : e ≠ .eof) :
    c.decodeMany n (bs ++ more) = .error e := by
  induction n generalizing bs with
  | zero => cases hread
  | succ n ih =>
    rw [decodeMany] at hread ⊢
    cases hdec : c.decode bs with
    | error e =>
      rw [hdec] at hread
      cases hread
      rw [hc.final more hdec he]
    | ok r =>
      obtain ⟨a, rest₁⟩ := r
      rw [hdec] at hread
      obtain ⟨ha, rfl⟩ := hc.sound hdec
      rw [List.append_assoc, c.decode_encode a _ ha]
      cases hmany : c.decodeMany n rest₁ with
      | ok r => simp only [hmany] at hread; cases hread
      | error e =>
        simp only [hmany] at hread
        cases hread
        simp only [ih hmany]
        rfl

theorem seq (hc : c.Exact) : c.seq.Exact where
  sound {bs rest as} hread := by
    change ((Codec.le 8).decode bs).bind _ = _ at hread
    cases hlen : (Codec.le 8).decode bs with
    | error e => rw [hlen] at hread; cases hread
    | ok r =>
      obtain ⟨n, rest₁⟩ := r
      rw [hlen] at hread
      obtain ⟨hn, rfl⟩ := (Exact.le 8).sound hlen
      obtain ⟨rfl, has, rfl⟩ := hc.sound_decodeMany hread
      exact ⟨⟨hn, has⟩, (List.append_assoc _ _ _).symm⟩
  final {bs e} more hread he := by
    change ((Codec.le 8).decode bs).bind _ = _ at hread
    change ((Codec.le 8).decode (bs ++ more)).bind _ = _
    cases hlen : (Codec.le 8).decode bs with
    | error e =>
      rw [hlen] at hread
      cases hread
      rw [(Exact.le 8).final more hlen he]
      rfl
    | ok r =>
      obtain ⟨n, rest₁⟩ := r
      rw [hlen] at hread
      obtain ⟨hn, rfl⟩ := (Exact.le 8).sound hlen
      rw [List.append_assoc, (Codec.le 8).decode_encode n _ hn]
      exact hc.final_decodeMany more hread he

end Exact

end Codec

end Interaction
