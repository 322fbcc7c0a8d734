import Mathlib.Data.Int.Notation
import Mathlib.Data.List.Basic
import Mathlib.Tactic.Common
import Mathlib.Tactic.SplitIfs

/-!
# Readers of a buffer

A reader moves a cursor over a buffer of bytes and counts what it reads. It ends with a value, with an
error that it raises, or with a fault: an access outside of the buffer, or a loop that does not end. A
reader is taken apart by what it takes to end with a value (`Reader.bind_eq_ok` and the lemma of each
primitive), and has no fault from any cursor in its buffer when its parts have none (`Safe`).
-/

namespace SdidBridge.Codec

/-! ## Cursors -/

/-- A buffer, how far it is read, and how much has been counted. -/
structure Cursor where
  /-- The bytes. -/
  buf : List UInt8
  /-- The index of the next byte. -/
  pos : ℕ
  /-- The items so far. -/
  count : ℕ

namespace Cursor

/-- The bytes that are not yet read. -/
def rest (c : Cursor) : List UInt8 := c.buf.drop c.pos

/-- How many there are. -/
def remaining (c : Cursor) : ℕ := c.buf.length - c.pos

/-- The cursor after `n` more bytes. -/
def skip (c : Cursor) (n : ℕ) : Cursor := { c with pos := c.pos + n }

/-- The cursor after `n` more items. -/
def counted (c : Cursor) (n : ℕ) : Cursor := { c with count := c.count + n }

/-- The cursor lies in its buffer. -/
def Inside (c : Cursor) : Prop := c.pos ≤ c.buf.length

/-- The cursor at the start of an input. -/
def start (input : List UInt8) : Cursor := ⟨input, 0, 0⟩

theorem start_inside (input : List UInt8) : (start input).Inside := Nat.zero_le _

@[simp] theorem start_rest (input : List UInt8) : (start input).rest = input := rfl
@[simp] theorem start_buf (input : List UInt8) : (start input).buf = input := rfl
@[simp] theorem start_count (input : List UInt8) : (start input).count = 0 := rfl

@[simp] theorem skip_buf (c : Cursor) (n : ℕ) : (c.skip n).buf = c.buf := rfl
@[simp] theorem skip_pos (c : Cursor) (n : ℕ) : (c.skip n).pos = c.pos + n := rfl
@[simp] theorem skip_count (c : Cursor) (n : ℕ) : (c.skip n).count = c.count := rfl
@[simp] theorem counted_buf (c : Cursor) (n : ℕ) : (c.counted n).buf = c.buf := rfl
@[simp] theorem counted_pos (c : Cursor) (n : ℕ) : (c.counted n).pos = c.pos := rfl
@[simp] theorem counted_count (c : Cursor) (n : ℕ) : (c.counted n).count = c.count + n := rfl
@[simp] theorem counted_rest (c : Cursor) (n : ℕ) : (c.counted n).rest = c.rest := rfl
@[simp] theorem counted_remaining (c : Cursor) (n : ℕ) : (c.counted n).remaining = c.remaining := rfl
@[simp] theorem counted_inside (c : Cursor) (n : ℕ) : (c.counted n).Inside ↔ c.Inside := Iff.rfl

@[simp] theorem skip_zero (c : Cursor) : c.skip 0 = c := rfl
@[simp] theorem counted_zero (c : Cursor) : c.counted 0 = c := rfl

@[simp] theorem skip_skip (c : Cursor) (m n : ℕ) : (c.skip m).skip n = c.skip (m + n) := by
  simp [skip, Nat.add_assoc]

@[simp] theorem counted_counted (c : Cursor) (m n : ℕ) : (c.counted m).counted n = c.counted (m + n) := by
  simp [counted, Nat.add_assoc]

@[simp] theorem counted_skip (c : Cursor) (m n : ℕ) : (c.counted m).skip n = (c.skip n).counted m := rfl

@[simp] theorem skip_rest (c : Cursor) (n : ℕ) : (c.skip n).rest = c.rest.drop n := by
  simp [rest, List.drop_drop]

theorem rest_length (c : Cursor) : c.rest.length = c.remaining := by
  simp [rest, remaining]

/-- What is left after the bytes `bs` are read. -/
theorem skip_rest_of_append {c : Cursor} {bs r : List UInt8} (h : c.rest = bs ++ r) :
    (c.skip bs.length).rest = r := by
  rw [skip_rest, h, List.drop_left]

/-- Bytes that are still to be read lie in the buffer. -/
theorem skip_inside {c : Cursor} (hc : c.Inside) {n : ℕ} (h : n ≤ c.remaining) : (c.skip n).Inside := by
  unfold Inside remaining at *
  simp only [skip_pos, skip_buf]
  omega

theorem skip_inside_of_append {c : Cursor} (hc : c.Inside) {bs r : List UInt8} (h : c.rest = bs ++ r) :
    (c.skip bs.length).Inside := by
  have hlen := c.rest_length
  rw [h, List.length_append] at hlen
  exact skip_inside hc (by omega)

theorem skip_one_inside {c : Cursor} (hc : c.Inside) {b : UInt8} {r : List UInt8} (h : c.rest = b :: r) :
    (c.skip 1).Inside := by
  have hsplit : c.rest = [b] ++ r := h
  exact skip_inside_of_append hc hsplit

theorem skip_one_rest {c : Cursor} {b : UInt8} {r : List UInt8} (h : c.rest = b :: r) :
    (c.skip 1).rest = r := by
  rw [skip_rest, h]
  rfl

end Cursor

/-! ## Readers -/

/-- Why a reader stops. -/
inductive Failure (ε : Type) where
  /-- It raises an error. -/
  | raised (e : ε)
  /-- It reads outside of its buffer, or does not end. -/
  | fault
  deriving DecidableEq

/-- A reader of values of type `α` that raises errors of type `ε`. -/
abbrev Reader (ε α : Type) := StateT Cursor (Except (Failure ε)) α

namespace Reader

variable {ε α β : Type}

/-- Raise an error. -/
def raise (e : ε) : Reader ε α := fun _ => .error (.raised e)

/-- Raise an error unless a condition holds. -/
def require (p : Prop) [Decidable p] (e : ε) : Reader ε Unit := if p then pure () else raise e

/-- How many bytes are left. -/
def remaining : Reader ε ℕ := fun c => .ok (c.remaining, c)

/-- `buf[pos++]`, with no check that there is such a byte. -/
def next : Reader ε UInt8 := fun c =>
  match c.buf[c.pos]? with
  | some b => .ok (b, c.skip 1)
  | none => .error .fault

/-- `buf.slice(pos, pos + n)`, with no check that there are as many bytes. -/
def slice (n : ℕ) : Reader ε (List UInt8) := fun c =>
  if c.pos + n ≤ c.buf.length then .ok (c.rest.take n, c.skip n) else .error .fault

/-- `buf[pos++]` behind a check that the buffer goes on. -/
def byte (e : ε) : Reader ε UInt8 := fun c =>
  if c.buf.length ≤ c.pos then .error (.raised e) else next c

/-- `buf.slice(pos, pos + n)` behind a check that as many bytes are left. -/
def bytes (n : ℕ) (e : ℕ → ε) : Reader ε (List UInt8) := fun c =>
  if c.remaining < n then .error (.raised (e c.remaining)) else slice n c

/-- Count one more item, of which there is an error above `limit`. -/
def tally (limit : ℤ) (e : ε) : Reader ε Unit := fun c =>
  if ((c.count + 1 : ℕ) : ℤ) > limit then .error (.raised e) else .ok ((), c.counted 1)

/-- The loop that reads `n` values. -/
def times (item : Reader ε α) : ℕ → Reader ε (List α)
  | 0 => pure []
  | n + 1 => do
    let a ← item
    let as ← times item n
    pure (a :: as)

/-- The loop that reads values until the buffer ends, with a fault if it has not after `n` of them. -/
def untilEnd (item : Reader ε α) : ℕ → Reader ε (List α)
  | 0 => fun c => if c.remaining = 0 then .ok ([], c) else .error .fault
  | n + 1 => fun c =>
    if c.remaining = 0 then .ok ([], c)
    else (do
      let a ← item
      let as ← untilEnd item n
      pure (a :: as)) c

/-- A reader over bytes of their own, which counts on from the count outside. -/
def within (content : List UInt8) (p : Reader ε α) : Reader ε α := fun c =>
  match p { buf := content, pos := 0, count := c.count } with
  | .ok (a, c') => .ok (a, { c with count := c'.count })
  | .error e => .error e

/-- What a reader makes of a whole input. -/
def run (p : Reader ε α) (input : List UInt8) : Except (Failure ε) α := Prod.fst <$> p (Cursor.start input)

theorem run_eq_ok {p : Reader ε α} {input : List UInt8} {a : α} :
    run p input = .ok a ↔ ∃ c, p (Cursor.start input) = .ok (a, c) := by
  unfold run
  cases h : p (Cursor.start input) with
  | error e => simp
  | ok r =>
    obtain ⟨a', c⟩ := r
    simp

theorem bind_eq_ok {x : Reader ε α} {f : α → Reader ε β} {c : Cursor} {r : β × Cursor} :
    (x >>= f) c = .ok r ↔ ∃ a c', x c = .ok (a, c') ∧ f a c' = .ok r := by
  simp only [bind, StateT.bind, Except.bind]
  cases h : x c with
  | error e => simp
  | ok p =>
    obtain ⟨a, c'⟩ := p
    simp

theorem bind_of_ok {x : Reader ε α} {f : α → Reader ε β} {c c' : Cursor} {a : α}
    (h : x c = .ok (a, c')) : (x >>= f) c = f a c' := by
  simp only [bind, StateT.bind, Except.bind, h]

theorem within_eq_ok {content : List UInt8} {p : Reader ε α} {c c' : Cursor} {a : α} :
    within content p c = .ok (a, c') ↔
      ∃ c₁, p { buf := content, pos := 0, count := c.count } = .ok (a, c₁) ∧ c' = { c with count := c₁.count } := by
  unfold within
  cases h : p { buf := content, pos := 0, count := c.count } with
  | error e => simp
  | ok r =>
    obtain ⟨a', c₁⟩ := r
    simp only [Except.ok.injEq, Prod.mk.injEq]
    constructor
    · rintro ⟨rfl, rfl⟩
      exact ⟨c₁, ⟨rfl, rfl⟩, rfl⟩
    · rintro ⟨c₂, ⟨rfl, rfl⟩, rfl⟩
      exact ⟨rfl, rfl⟩

/-- A value is returned from where it stands. -/
theorem pure_apply (a : α) (c : Cursor) : (pure a : Reader ε α) c = .ok (a, c) := rfl

@[simp] theorem pure_eq_ok {a a' : α} {c c' : Cursor} :
    (pure a : Reader ε α) c = .ok (a', c') ↔ a' = a ∧ c' = c := by
  simp only [pure_apply, Except.ok.injEq, Prod.mk.injEq]
  exact and_congr eq_comm eq_comm

@[simp] theorem raise_eq_ok {e : ε} {c : Cursor} {r : α × Cursor} :
    (raise e : Reader ε α) c = .ok r ↔ False := by
  simp [raise]

@[simp] theorem require_eq_ok {p : Prop} [Decidable p] {e : ε} {c : Cursor} {r : Unit × Cursor} :
    require p e c = .ok r ↔ p ∧ r.2 = c := by
  unfold require
  split_ifs with h
  · obtain ⟨u, c'⟩ := r
    simp [h]
  · simp [h]

@[simp] theorem remaining_eq_ok {c : Cursor} {r : ℕ × Cursor} :
    (remaining : Reader ε ℕ) c = .ok r ↔ r = (c.remaining, c) := by
  simp only [remaining, Except.ok.injEq]
  exact eq_comm

@[simp] theorem tally_eq_ok {limit : ℤ} {e : ε} {c : Cursor} {r : Unit × Cursor} :
    tally limit e c = .ok r ↔ ((c.count + 1 : ℕ) : ℤ) ≤ limit ∧ r.2 = c.counted 1 := by
  obtain ⟨u, c'⟩ := r
  unfold tally
  split_ifs with h
  · simp only [false_iff, not_and]
    omega
  · simp only [Except.ok.injEq, Prod.mk.injEq, true_and]
    constructor
    · rintro rfl
      exact ⟨by omega, rfl⟩
    · exact fun h' => h'.2.symm

/-- A byte is read when there is one. -/
theorem byte_eq_ok {e : ε} {c c' : Cursor} {b : UInt8} :
    byte e c = .ok (b, c') ↔ (∃ r, c.rest = b :: r) ∧ c' = c.skip 1 := by
  have hhead : c.rest.head? = c.buf[c.pos]? := by
    unfold Cursor.rest
    rw [List.head?_drop]
  unfold byte next
  rw [← hhead]
  cases hr : c.rest with
  | nil =>
    have hlen := c.rest_length
    rw [hr] at hlen
    unfold Cursor.remaining at hlen
    simp only [List.length_nil] at hlen
    rw [if_pos (by omega)]
    simp
  | cons b' r =>
    have hlen := c.rest_length
    rw [hr] at hlen
    unfold Cursor.remaining at hlen
    simp only [List.length_cons] at hlen
    rw [if_neg (by omega)]
    simp [eq_comm]

theorem require_bind_eq_ok {p : Prop} [Decidable p] {e : ε} {f : Unit → Reader ε β} {c : Cursor}
    {r : β × Cursor} : (require p e >>= f) c = .ok r ↔ p ∧ f () c = .ok r := by
  rw [bind_eq_ok]
  constructor
  · rintro ⟨u, c', hcheck, h⟩
    obtain ⟨hp, hsame⟩ := require_eq_ok.mp hcheck
    dsimp only at hsame
    subst hsame
    exact ⟨hp, h⟩
  · rintro ⟨hp, h⟩
    exact ⟨(), c, require_eq_ok.mpr ⟨hp, rfl⟩, h⟩

theorem byte_bind_eq_ok {e : ε} {f : UInt8 → Reader ε β} {c : Cursor} {r : β × Cursor} :
    (byte e >>= f) c = .ok r ↔ ∃ b bs, c.rest = b :: bs ∧ f b (c.skip 1) = .ok r := by
  rw [bind_eq_ok]
  constructor
  · rintro ⟨b, c', hread, h⟩
    obtain ⟨⟨bs, hbs⟩, rfl⟩ := byte_eq_ok.mp hread
    exact ⟨b, bs, hbs, h⟩
  · rintro ⟨b, bs, hbs, h⟩
    exact ⟨b, c.skip 1, byte_eq_ok.mpr ⟨⟨bs, hbs⟩, rfl⟩, h⟩

/-- Bytes are read when there are as many. -/
theorem bytes_eq_ok {n : ℕ} {e : ℕ → ε} {c c' : Cursor} {bs : List UInt8} (hc : c.Inside) :
    bytes n e c = .ok (bs, c') ↔ n ≤ c.remaining ∧ bs = c.rest.take n ∧ c' = c.skip n := by
  unfold Cursor.Inside at hc
  unfold bytes slice
  by_cases h : n ≤ c.remaining
  · have hin : c.pos + n ≤ c.buf.length := by
      unfold Cursor.remaining at h
      omega
    rw [if_neg (by omega), if_pos hin]
    simp [h, eq_comm]
  · rw [if_pos (by omega)]
    simp [h]

/-- As many bytes are read one by one as are read at once. -/
theorem times_byte_eq_ok {n : ℕ} {e : ε} {c c' : Cursor} {bs : List UInt8} (hc : c.Inside) :
    times (byte e) n c = .ok (bs, c') ↔ n ≤ c.remaining ∧ bs = c.rest.take n ∧ c' = c.skip n := by
  induction n generalizing c c' bs with
  | zero => simp [times]
  | succ n ih =>
    unfold times
    simp only [bind_eq_ok, byte_eq_ok, pure_eq_ok]
    constructor
    · rintro ⟨b, c₁, ⟨⟨r, hr⟩, rfl⟩, bs', c₂, hbs, rfl, rfl⟩
      obtain ⟨hn, rfl, rfl⟩ := (ih (Cursor.skip_one_inside hc hr)).mp hbs
      have hlen := c.rest_length
      have hlen₁ := (c.skip 1).rest_length
      rw [hr, List.length_cons] at hlen
      rw [Cursor.skip_one_rest hr] at hlen₁
      refine ⟨by omega, ?_, ?_⟩
      · rw [Cursor.skip_one_rest hr, hr, List.take_succ_cons]
      · rw [Cursor.skip_skip, Nat.add_comm]
    · rintro ⟨hn, rfl, rfl⟩
      have hlen := c.rest_length
      cases hr : c.rest with
      | nil =>
        rw [hr, List.length_nil] at hlen
        omega
      | cons b r =>
        have hlen₁ := (c.skip 1).rest_length
        rw [hr, List.length_cons] at hlen
        rw [Cursor.skip_one_rest hr] at hlen₁
        have htail : times (byte e) n (c.skip 1) = .ok (r.take n, (c.skip 1).skip n) := by
          rw [ih (Cursor.skip_one_inside hc hr), Cursor.skip_one_rest hr]
          exact ⟨by omega, rfl, rfl⟩
        refine ⟨b, c.skip 1, ⟨⟨r, rfl⟩, rfl⟩, r.take n, (c.skip 1).skip n, htail, ?_, ?_⟩
        · rw [List.take_succ_cons]
        · rw [Cursor.skip_skip, Nat.add_comm]

end Reader

/-! ## Readers that stay in their buffer -/

section Safe

variable {ε α β : Type}

/-- From a cursor in its buffer the reader has no fault, and it leaves the cursor in the same buffer. -/
def Safe (p : Reader ε α) : Prop :=
  ∀ c : Cursor, c.Inside →
    p c ≠ .error .fault ∧ ∀ a c', p c = .ok (a, c') → c'.Inside ∧ c'.buf = c.buf

theorem Safe.pure (a : α) : Safe (pure a : Reader ε α) := by
  intro c hc
  constructor
  · intro h
    cases h
  · intro a' c' h
    obtain ⟨-, rfl⟩ := Reader.pure_eq_ok.mp h
    exact ⟨hc, rfl⟩

theorem Safe.raise (e : ε) : Safe (Reader.raise e : Reader ε α) := by
  intro c hc
  constructor
  · intro h
    cases h
  · intro a c' h
    exact (Reader.raise_eq_ok.mp h).elim

theorem Safe.bind {x : Reader ε α} {f : α → Reader ε β} (hx : Safe x) (hf : ∀ a, Safe (f a)) :
    Safe (x >>= f) := by
  intro c hc
  obtain ⟨hnot, hok⟩ := hx c hc
  cases h : x c with
  | error e =>
    have hbind : (x >>= f) c = .error e := by
      simp only [Bind.bind, StateT.bind, Except.bind, h]
    rw [hbind]
    constructor
    · intro he
      exact hnot (by rw [h, Except.error.inj he])
    · intro b c' h'
      cases h'
  | ok r =>
    obtain ⟨a, c'⟩ := r
    obtain ⟨hin, hbuf⟩ := hok a c' h
    rw [Reader.bind_of_ok h]
    obtain ⟨hnot', hok'⟩ := hf a c' hin
    refine ⟨hnot', ?_⟩
    intro b c'' h''
    obtain ⟨hin', hbuf'⟩ := hok' b c'' h''
    exact ⟨hin', hbuf'.trans hbuf⟩

theorem Safe.ite {p : Prop} [Decidable p] {x y : Reader ε α} (hx : Safe x) (hy : Safe y) :
    Safe (if p then x else y) := by
  split_ifs
  · exact hx
  · exact hy

theorem Safe.require (p : Prop) [Decidable p] (e : ε) : Safe (Reader.require p e) :=
  Safe.ite (Safe.pure ()) (Safe.raise e)

/-- What follows a check matters only where the check passes. -/
theorem Safe.require_bind {p : Prop} [Decidable p] {e : ε} {f : Unit → Reader ε β} (hf : p → Safe (f ())) :
    Safe (Reader.require p e >>= f) := by
  by_cases hp : p
  · exact Safe.bind (Safe.require p e) fun _ => hf hp
  · intro c hc
    have hraise : (Reader.require p e >>= f) c = .error (.raised e) := by
      unfold Reader.require
      rw [if_neg hp]
      rfl
    rw [hraise]
    constructor
    · simp
    · intro b c' h
      cases h

theorem Safe.remaining : Safe (Reader.remaining : Reader ε ℕ) := by
  intro c hc
  constructor
  · intro h
    cases h
  · intro n c' h
    have hr := Reader.remaining_eq_ok.mp h
    simp only [Prod.mk.injEq] at hr
    obtain ⟨-, rfl⟩ := hr
    exact ⟨hc, rfl⟩

theorem Safe.tally (limit : ℤ) (e : ε) : Safe (Reader.tally limit e) := by
  intro c hc
  constructor
  · unfold Reader.tally
    split_ifs <;> simp
  · intro u c' h
    obtain ⟨-, rfl⟩ := Reader.tally_eq_ok.mp h
    exact ⟨hc, rfl⟩

theorem Safe.byte (e : ε) : Safe (Reader.byte e) := by
  intro c hc
  constructor
  · unfold Reader.byte Reader.next
    split_ifs with h
    · simp
    · have hlt : c.pos < c.buf.length := by omega
      rw [List.getElem?_eq_getElem hlt]
      simp
  · intro b c' h
    obtain ⟨⟨r, hr⟩, rfl⟩ := Reader.byte_eq_ok.mp h
    have hlen := c.rest_length
    rw [hr, List.length_cons] at hlen
    exact ⟨Cursor.skip_inside hc (by omega), rfl⟩

theorem Safe.bytes (n : ℕ) (e : ℕ → ε) : Safe (Reader.bytes n e) := by
  intro c hc
  constructor
  · unfold Cursor.Inside at hc
    unfold Reader.bytes Reader.slice Cursor.remaining
    split_ifs with h h'
    · simp
    · simp
    · omega
  · intro bs c' h
    obtain ⟨hn, -, rfl⟩ := (Reader.bytes_eq_ok hc).mp h
    exact ⟨Cursor.skip_inside hc hn, rfl⟩

theorem Safe.times {item : Reader ε α} (hitem : Safe item) (n : ℕ) : Safe (Reader.times item n) := by
  induction n with
  | zero => exact Safe.pure _
  | succ n ih =>
    unfold Reader.times
    exact Safe.bind hitem fun a => Safe.bind ih fun as => Safe.pure _

/-- A loop whose turns each read a byte comes to the end of a buffer that has no more bytes than it has
turns. -/
theorem Safe.untilEnd {item : Reader ε α} (hitem : Safe item)
    (hprogress : ∀ c a c', c.Inside → item c = .ok (a, c') → c'.remaining < c.remaining) {n : ℕ} {c : Cursor}
    (hc : c.Inside) (hn : c.remaining ≤ n) : Reader.untilEnd item n c ≠ .error .fault := by
  induction n generalizing c with
  | zero =>
    unfold Reader.untilEnd
    rw [if_pos (by omega)]
    simp
  | succ n ih =>
    unfold Reader.untilEnd
    split_ifs with hleft
    · simp
    · cases h : item c with
      | error e =>
        have hnot := (hitem c hc).1
        rw [h] at hnot
        simpa [Bind.bind, StateT.bind, Except.bind, h] using hnot
      | ok r =>
        obtain ⟨a, c'⟩ := r
        have hless := hprogress c a c' hc h
        have hrest := ih ((hitem c hc).2 a c' h).1 (by omega)
        rw [Reader.bind_of_ok h]
        cases hloop : Reader.untilEnd item n c' with
        | error e =>
          rw [hloop] at hrest
          simpa [Bind.bind, StateT.bind, Except.bind, hloop] using hrest
        | ok r =>
          obtain ⟨as, c''⟩ := r
          rw [Reader.bind_of_ok hloop]
          intro hfault
          cases hfault

/-- Within bytes of its own a reader leaves the cursor where it was. -/
theorem Safe.within {content : List UInt8} {p : Reader ε α}
    (hp : ∀ n, p { buf := content, pos := 0, count := n } ≠ .error .fault) : Safe (Reader.within content p) := by
  intro c hc
  have hnot := hp c.count
  unfold Reader.within
  cases h : p { buf := content, pos := 0, count := c.count } with
  | error e =>
    rw [h] at hnot
    exact ⟨hnot, fun a c' h' => by cases h'⟩
  | ok r =>
    obtain ⟨a, c₁⟩ := r
    constructor
    · simp
    · intro a' c' h'
      simp only [Except.ok.injEq, Prod.mk.injEq] at h'
      obtain ⟨-, rfl⟩ := h'
      exact ⟨hc, rfl⟩

/-- A reader that stays in its buffer has no fault on any input. -/
theorem Safe.run_ne_fault {p : Reader ε α} (hp : Safe p) (input : List UInt8) :
    Reader.run p input ≠ .error .fault := by
  have hstart := (hp (Cursor.start input) (Cursor.start_inside input)).1
  unfold Reader.run
  cases h : p (Cursor.start input) with
  | ok r => simp
  | error e =>
    rw [h] at hstart
    simpa using hstart

end Safe

end SdidBridge.Codec
