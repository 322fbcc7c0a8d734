import SdidBridge.Concurrent.Alone
import SdidBridge.Mobile.Turns

/-!
# What a failed enrolment leaves behind

An enrolment generates its key under the client's one alias, long before the broker has confirmed anything, and the
binding is stored at its very end. An enrolment that fails leaves the stored binding as it was. The key of the stored
binding is still the one that the broker knows exactly where the key store has not generated another under its alias.
-/

namespace SdidBridge.Mobile

open Concurrent Prog

variable {opts : ProtocolClientOptions} {h : List Acted} {s s' s₀ : Phone}

/-- Whether the key store has generated a key under the alias. -/
def Generated (keyAlias : String) : List Acted → Bool
  | [] => false
  | ⟨.generate named _, some (.ok _)⟩ :: h => named == keyAlias || Generated keyAlias h
  | _ :: h => Generated keyAlias h

/-- How the phone stands in an enrolment that started in `s₀`, before the binding is stored. -/
structure Enrols (opts : ProtocolClientOptions) (s₀ : Phone) (h : List Acted) (s : Phone) : Prop where
  /-- The stored binding is the old one. -/
  persisted : s.persisted = s₀.persisted
  /-- Keys are generated one after another. -/
  nextKey : s₀.nextKey ≤ s.nextKey
  /-- The keys under other aliases are untouched. -/
  others : ∀ keyAlias, keyAlias ≠ opts.keyAlias → s.keys keyAlias = s₀.keys keyAlias
  /-- Before a key has been generated, the old key is in place. -/
  old : Generated opts.keyAlias h = false → s.keys opts.keyAlias = s₀.keys opts.keyAlias
  /-- After that, a new one is. -/
  new : Generated opts.keyAlias h = true → ∃ k, s₀.nextKey ≤ k ∧ s.keys opts.keyAlias = some k

/-- The calls on the seams that an enrolment makes before it stores the binding. -/
def Command.enrols (opts : ProtocolClientOptions) : Command → Prop
  | .save _ => False
  | .clear => False
  | .deleteKey _ => False
  | .generate keyAlias _ => keyAlias = opts.keyAlias
  | _ => True

/-- A call that generates no key leaves the keys alone. -/
theorem Enrols.other {world : World} {o : Command} {r : Option (Answer o)} (hs : Enrols opts s₀ h s)
    (hx : Phone.exec world s o = some (r, s')) (ho : o.enrols opts)
    (hgenerate : ∀ keyAlias challenge, o ≠ .generate keyAlias challenge) : Enrols opts s₀ (⟨o, r⟩ :: h) s' := by
  have hpersisted : s'.persisted = s.persisted := by
    refine exec_persisted hx ?_ ?_
    · rintro b rfl
      exact ho
    · rintro rfl
      exact ho
  have hkeys : s'.keys = s.keys := by
    refine exec_keys hx hgenerate ?_
    rintro a rfl
    exact ho
  have hnext : s'.nextKey = s.nextKey := exec_nextKey hx hgenerate
  have hgenerated : Generated opts.keyAlias (⟨o, r⟩ :: h) = Generated opts.keyAlias h := by
    cases o with
    | generate keyAlias challenge => exact absurd rfl (hgenerate keyAlias challenge)
    | _ => rfl
  refine ⟨hpersisted.trans hs.persisted, hnext ▸ hs.nextKey, ?_, ?_, ?_⟩
  · rw [hkeys]
    exact hs.others
  · rw [hkeys, hgenerated]
    exact hs.old
  · rw [hkeys, hgenerated]
    exact hs.new

/-- A key that is generated replaces the one under the client's alias. -/
theorem Enrols.generate {world : World} {challenge : String} {r : Option (Answer (.generate opts.keyAlias challenge))}
    (hs : Enrols opts s₀ h s) (hx : Phone.exec world s (.generate opts.keyAlias challenge) = some (r, s')) :
    Enrols opts s₀ (⟨.generate opts.keyAlias challenge, r⟩ :: h) s' := by
  simp only [Phone.exec, Option.some.injEq, Prod.mk.injEq] at hx
  obtain ⟨rfl, rfl⟩ := hx
  cases hanswer : world (.generate opts.keyAlias challenge) with
  | none => exact ⟨hs.persisted, hs.nextKey, hs.others, hs.old, hs.new⟩
  | some answer =>
    cases answer with
    | error e => exact ⟨hs.persisted, hs.nextKey, hs.others, hs.old, hs.new⟩
    | ok key =>
      refine ⟨hs.persisted, hs.nextKey.trans (Nat.le_succ _), fun keyAlias hne => ?_, fun hnone => ?_, fun _ => ?_⟩
      · exact (Function.update_of_ne hne _ _).trans (hs.others keyAlias hne)
      · simp [Generated] at hnone
      · exact ⟨s.nextKey, hs.nextKey, Function.update_self _ _ _⟩

theorem keeps_enrols : Keeps Phone.exec (fun _ _ _ => True) (fun _ _ _ => True) (Command.enrols opts)
    (Enrols opts s₀) := by
  refine fun h s o hs ho => ⟨trivial, fun world r s' hx _ => ?_⟩
  by_cases hgenerate : ∀ keyAlias challenge, o ≠ .generate keyAlias challenge
  · exact hs.other hx ho hgenerate
  · push Not at hgenerate
    obtain ⟨keyAlias, challenge, rfl⟩ := hgenerate
    obtain rfl : keyAlias = opts.keyAlias := ho
    exact hs.generate hx

/-- What an enrolment that fails leaves behind. -/
def LeavesOnError (opts : ProtocolClientOptions) (s₀ : Phone) {α : Type} (h : List Acted) (s : Phone) :
    Except Thrown α → Prop
  | .ok _ => True
  | .error _ => Enrols opts s₀ h s

/-- During an enrolment. -/
abbrev Enrolment {α : Type} (opts : ProtocolClientOptions) (s₀ : Phone) (h : List Acted) (s : Phone) (p : Client α) :
    Prop :=
  Turn (fun _ _ _ => True) (fun _ _ _ => True) (LeavesOnError opts s₀) h s p

/-- The rule for a part of an enrolment that does not store the binding. -/
theorem Enrols.part {α β : Type} {p : Client α} {f : α → Client β} (hs : Enrols opts s₀ h s)
    (hp : Only (Command.enrols opts) p) (hf : ∀ a h s, Enrols opts s₀ h s → Enrolment opts s₀ h s (f a)) :
    Enrolment opts s₀ h s (p >>= f) :=
  hp.during_bind keeps_enrols hs (fun _ _ _ hs => hs) hf

/-- Every key under an alias is one that has been generated. -/
def Phone.WellKeyed (s : Phone) : Prop := ∀ keyAlias key, s.keys keyAlias = some key → key < s.nextKey

theorem Phone.WellKeyed.exec {world : World} {o : Command} {r : Option (Answer o)} (hs : s.WellKeyed)
    (hx : Phone.exec world s o = some (r, s')) : s'.WellKeyed := by
  intro keyAlias key hkey
  by_cases hstore : (∃ a n, o = .generate a n) ∨ ∃ a, o = .deleteKey a
  · rcases hstore with ⟨a, n, rfl⟩ | ⟨a, rfl⟩
    · simp only [Phone.exec, Option.some.injEq, Prod.mk.injEq] at hx
      obtain ⟨-, rfl⟩ := hx
      split at hkey
      · by_cases hsame : keyAlias = a
        · subst hsame
          simp only [Function.update_self, Option.some.injEq] at hkey
          rw [← hkey]
          exact Nat.lt_succ_self _
        · simp only [Function.update_of_ne hsame] at hkey
          exact (hs keyAlias key hkey).trans (Nat.lt_succ_self _)
      · exact hs keyAlias key hkey
    · have hnext := exec_nextKey hx (by simp)
      simp only [Phone.exec, Option.some.injEq, Prod.mk.injEq] at hx
      obtain ⟨-, rfl⟩ := hx
      rw [hnext]
      split at hkey
      · by_cases hsame : keyAlias = a
        · simp [hsame] at hkey
        · simp only [Function.update_of_ne hsame] at hkey
          exact hs keyAlias key hkey
      · exact hs keyAlias key hkey
  · push Not at hstore
    rw [exec_keys hx hstore.1 hstore.2] at hkey
    rw [exec_nextKey hx hstore.1]
    exact hs keyAlias key hkey

/-- In every run, the keys have been generated if they have been so at the start. -/
theorem reach_wellKeyed {init : Phone} {tr : List (Entry Command Answer ClientCall Phone)}
    {c : Config Command Answer Thrown Unit Phone} (hr : (phone opts init).Reach tr c) (h₀ : init.WellKeyed) :
    c.store.WellKeyed := by
  refine hr.invariant h₀ ?_
  rintro ⟨s, ev⟩ - s' hleads hs
  cases ev with
  | arrive t q => exact (show s' = s from hleads) ▸ hs
  | act t a =>
    rcases hleads with ⟨world, hx⟩ | ⟨-, hfail, -⟩
    · exact hs.exec hx
    · simp [phone] at hfail
  | env =>
    obtain ⟨world, hx⟩ := hleads
    simp [phone] at hx

/-- The old enrolment still works: its binding is stored, and its key is under its alias. -/
def Phone.Enrolled (s : Phone) (b : PersistedBinding) (key : ℕ) : Prop :=
  s.persisted = some b ∧ s.keys b.keyAlias = some key

end SdidBridge.Mobile
