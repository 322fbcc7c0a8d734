import SdidBridge.Concurrent.Ensures
import SdidBridge.Keys.Remote

/-!
# The paths of the calls of a remote custody

A reload asks the adapter for its keys and then for the public half of each, and installs what it has read of the
one adapter in one go (`LoadedOn`). So what is published of it is exactly what was listed (`LoadedOn.publishes`). Every
call that installs, signs, rotates or tells its listeners does so after what `OnPath` says, and ends as `EndsOn` says.
-/

namespace SdidBridge.Keys.Remote

open Concurrent Prog Attestation

/-! ## What a reload reads -/

/-- The adapter has given the public half of a key, and this is what is kept of it. -/
def FetchedOn (C : Setup) (a : RemoteCustodyAdapter) (h : List Cmd) (k : CachedKey) : Prop :=
  k.descriptor = describe k.remote ∧ ∃ material,
    (⟨.getPublicKey a k.remote, some (.ok material)⟩ : Cmd) ∈ h ∧ toPublicJwk C material k.remote = .ok k.publicJwk

/-- The keys are what the adapter has listed, each with the public half that it has given. -/
def LoadedOn (C : Setup) (h : List Cmd) (remotes : List RemoteKeyDescriptor) (x : KeySet) : Prop :=
  ∃ a, ∃ ks : List CachedKey, (⟨.listKeys a, some (.ok remotes)⟩ : Cmd) ∈ h ∧ ks.map (·.remote) = remotes ∧
    (∀ k ∈ ks, FetchedOn C a h k) ∧ x = ks.foldl KeySet.add .empty

/-- What is published of the keys that a backend listed. -/
structure Publishes (remotes : List RemoteKeyDescriptor) (jwks : List Jwk) : Prop where
  /-- Every key that was listed is there, active or retired. -/
  complete : ∀ remote ∈ remotes, ∃ jwk ∈ jwks, JsMap.get "kid" jwk = some (.str remote.kid)
  /-- A key that is there was listed, carries the id and the algorithm that it was listed with, and no private part. -/
  sound : ∀ jwk ∈ jwks, JsMap.get "d" jwk = none ∧ JsMap.get "use" jwk = some (.str "sig") ∧ ∃ remote ∈ remotes,
    JsMap.get "kid" jwk = some (.str remote.kid) ∧ JsMap.get "alg" jwk = some (.str remote.alg.text)
  /-- An id is there once. -/
  once : (jwks.map (JsMap.get "kid")).Nodup

section KeySets

variable {C : Setup} {a : RemoteCustodyAdapter} {h h' : List Cmd} {x : KeySet} {k : CachedKey} {ks : List CachedKey}
  {remote : RemoteKeyDescriptor} {remotes : List RemoteKeyDescriptor} {jwk : Jwk} {material : Material}

theorem FetchedOn.mono (hs : h <:+ h') (hf : FetchedOn C a h k) : FetchedOn C a h' k := by
  obtain ⟨hdescriptor, material, hgiven, hjwk⟩ := hf
  exact ⟨hdescriptor, material, hs.mem hgiven, hjwk⟩

theorem LoadedOn.mono (hs : h <:+ h') (hl : LoadedOn C h remotes x) : LoadedOn C h' remotes x := by
  obtain ⟨a, ks, hlisted, hremotes, hfetched, hx⟩ := hl
  exact ⟨a, ks, hs.mem hlisted, hremotes, fun k hk => (hfetched k hk).mono hs, hx⟩

/-- The members of a published key that the engine sets, and the one that it deletes. -/
theorem members_of_toPublicJwk (hjwk : toPublicJwk C material remote = .ok jwk) :
    JsMap.get "d" jwk = none ∧ JsMap.get "use" jwk = some (.str "sig") ∧
      JsMap.get "kid" jwk = some (.str remote.kid) ∧ JsMap.get "alg" jwk = some (.str remote.alg.text) := by
  unfold toPublicJwk at hjwk
  cases hmembers : material.members C with
  | error e =>
    rw [hmembers] at hjwk
    cases hjwk
  | ok members =>
    rw [hmembers] at hjwk
    obtain rfl := Except.ok.inj hjwk
    refine ⟨JsMap.get_delete_self, ?_, ?_, ?_⟩
    · rw [stamp, JsMap.get_delete_of_ne (by decide), JsMap.get_set_self]
    · rw [stamp, JsMap.get_delete_of_ne (by decide), JsMap.get_set_of_ne (by decide), JsMap.get_set_of_ne (by decide),
        JsMap.get_set_self]
    · rw [stamp, JsMap.get_delete_of_ne (by decide), JsMap.get_set_of_ne (by decide), JsMap.get_set_self]

/-- What the keys that a loop has added are. -/
structure Holds (x : KeySet) (ks : List CachedKey) : Prop where
  /-- An id is there once. -/
  nodup : (x.keys.map Prod.fst).Nodup
  /-- A key is under its id, and was added. -/
  entry : ∀ e ∈ x.keys, e.2 ∈ ks ∧ e.2.remote.kid = e.1
  /-- The id of each key that was added is there. -/
  covers : ∀ k ∈ ks, k.remote.kid ∈ x.keys.map Prod.fst
  /-- The active key is the first of those that are. -/
  active : x.active = (ks.find? fun k => k.remote.status = .active).map (·.remote.kid)

theorem holds_empty : Holds .empty [] := ⟨List.nodup_nil, by simp [KeySet.empty], by simp, rfl⟩

/-- One round of the loop. -/
theorem Holds.add (hx : Holds x ks) (k : CachedKey) : Holds (x.add k) (ks ++ [k]) := by
  refine ⟨JsMap.nodup_set hx.nodup, fun e he => ?_, fun k' hk' => ?_, ?_⟩
  · rcases JsMap.mem_set he with rfl | hold
    · exact ⟨List.mem_append_right _ (List.mem_singleton_self _), rfl⟩
    · exact ⟨List.mem_append_left _ (hx.entry e hold).1, (hx.entry e hold).2⟩
  · refine JsMap.mem_keys_set.mpr ?_
    rcases List.mem_append.mp hk' with hold | hnew
    · exact .inr (hx.covers k' hold)
    · rw [List.mem_singleton.mp hnew]
      exact .inl rfl
  · have hactive := hx.active
    rw [List.find?_append]
    cases hfind : ks.find? fun k => decide (k.remote.status = .active) with
    | some k₀ =>
      rw [hfind] at hactive
      simp [KeySet.add, hactive]
    | none =>
      rw [hfind] at hactive
      by_cases hk : k.remote.status = .active <;> simp [KeySet.add, hactive, hk]

theorem holds_foldl (ks : List CachedKey) : Holds (ks.foldl KeySet.add .empty) ks := by
  suffices h : ∀ ks₀ x, Holds x ks₀ → Holds (ks.foldl KeySet.add x) (ks₀ ++ ks) by
    simpa using h [] .empty holds_empty
  induction ks with
  | nil =>
    intro ks₀ x hx
    rw [List.append_nil]
    exact hx
  | cons k ks ih =>
    intro ks₀ x hx
    have hrest := ih (ks₀ ++ [k]) (x.add k) (hx.add k)
    rw [List.append_assoc, List.singleton_append] at hrest
    exact hrest

/-- What is published of the keys that were loaded. -/
theorem LoadedOn.publishes (hl : LoadedOn C h remotes x) : Publishes remotes (x.keys.map (·.2.publicJwk)) := by
  obtain ⟨a, ks, -, rfl, hfetched, rfl⟩ := hl
  have hx := holds_foldl ks
  have hkid : ∀ e ∈ (ks.foldl KeySet.add .empty).keys, JsMap.get "kid" e.2.publicJwk = some (.str e.1) := by
    intro e he
    obtain ⟨hmem, hid⟩ := hx.entry e he
    obtain ⟨-, material, -, hjwk⟩ := hfetched e.2 hmem
    rw [← hid]
    exact (members_of_toPublicJwk hjwk).2.2.1
  refine ⟨fun remote hremote => ?_, fun jwk hjwk => ?_, ?_⟩
  · obtain ⟨k, hk, rfl⟩ := List.mem_map.mp hremote
    obtain ⟨e, he, heq⟩ := List.mem_map.mp (hx.covers k hk)
    refine ⟨e.2.publicJwk, List.mem_map_of_mem he, ?_⟩
    rw [hkid e he, heq]
  · obtain ⟨e, he, rfl⟩ := List.mem_map.mp hjwk
    have hmem := (hx.entry e he).1
    obtain ⟨-, material, -, hjwk⟩ := hfetched e.2 hmem
    obtain ⟨hd, huse, hid, halg⟩ := members_of_toPublicJwk hjwk
    exact ⟨hd, huse, e.2.remote, List.mem_map_of_mem hmem, hid, halg⟩
  · have hids : (ks.foldl KeySet.add .empty).keys.map (JsMap.get "kid" ∘ fun e => e.2.publicJwk) =
        ((ks.foldl KeySet.add .empty).keys.map Prod.fst).map fun kid => some (JsValue.str kid) := by
      rw [List.map_map]
      exact List.map_congr_left hkid
    rw [List.map_map, hids]
    exact hx.nodup.map fun kid kid' heq => by simpa using heq

/-- The active key of the keys that were loaded is the first that the backend lists as active. -/
theorem LoadedOn.active (hl : LoadedOn C h remotes x) :
    x.active = (remotes.find? fun remote => remote.status = .active).map (·.kid) := by
  obtain ⟨a, ks, -, rfl, -, rfl⟩ := hl
  rw [(holds_foldl ks).active, List.find?_map, Option.map_map]
  rfl

end KeySets

/-! ## The paths of the calls -/

/-- The call has reloaded since the commands `h₀`, and has done nothing after it. -/
def ReloadedSince (C : Setup) (h₀ h : List Cmd) : Prop :=
  ∃ x remotes seg, h = ⟨.install x, some ()⟩ :: (seg ++ h₀) ∧ LoadedOn C seg remotes x

/-- What precedes the keys that a call installs, a request for a signature, a rotation, and its events. -/
def OnPath (C : Setup) (q : Request) (h : List Cmd) : Op → Prop
  | .install x => ∃ remotes, LoadedOn C h remotes x
  | .sign _ key data => ∃ kid x k, q = .sign kid data ∧ (⟨.view, some x⟩ : Cmd) ∈ h ∧
      JsMap.get kid x.keySet.keys = some k ∧ k.remote = key
  | .rotate a => q = .rotate ∧ a.rotates = true
  | .emit events => ∃ a result before, (⟨.rotate a, some (.ok result)⟩ : Cmd) ∈ h ∧
      events = rotationEvents result before
  | _ => True

/-- What precedes the end of a call that returns. -/
def EndsOn (C : Setup) (q : Request) (h : List Cmd) (r : Reply) : Prop :=
  match q, r with
  | .init, .done => ∃ x h₁ h₀, h = ⟨.view, some x⟩ :: h₁ ∧ x.keySet.active ≠ none ∧ ReloadedSince C h₀ h₁
  | .activeKid, .kid kid => ∃ x, (⟨.view, some x⟩ : Cmd) ∈ h ∧ x.keySet.active = some kid
  | .listPublicJwks, .jwks keys => ∃ x, (⟨.view, some x⟩ : Cmd) ∈ h ∧ keys = x.keySet.keys.map (·.2.publicJwk)
  | .sign kid data, .signature bytes => ∃ x k a raw, (⟨.view, some x⟩ : Cmd) ∈ h ∧
      JsMap.get kid x.keySet.keys = some k ∧ (⟨.sign a k.remote data, some (.ok raw)⟩ : Cmd) ∈ h ∧
      normalizeEcdsaSignature raw .ES256 = .ok bytes ∧ bytes.length = 64
  | .healthCheck, .health v => v.healthy = true → ∃ x h₁ h₀, h = ⟨.view, some x⟩ :: h₁ ∧
      (v.activeKid ≠ none ∧ v.activeKid = x.keySet.active) ∧ ReloadedSince C h₀ h₁ ∧
      ∃ x₀ a, (⟨.view, some x₀⟩ : Cmd) ∈ h₀ ∧ x₀.adapter = some a ∧ (a.reportsHealth = true →
        ∃ result, (⟨.health a, some (.ok result)⟩ : Cmd) ∈ h₀ ∧ result.healthy = true)
  | .rotate, .rotation r => ∃ a before x h₁ h₀, h = ⟨.emit (rotationEvents ⟨r.promotedKid, r.retiredKids⟩ before),
      some x⟩ :: h₁ ∧ ReloadedSince C h₀ h₁ ∧ a.rotates = true ∧
      (⟨.rotate a, some (.ok ⟨r.promotedKid, r.retiredKids⟩)⟩ : Cmd) ∈ h₀
  | _, _ => True

section Paths

variable {C : Setup} {q : Request} {a : RemoteCustodyAdapter} {h h₀ : List Cmd} {x : Fields}
  {Φ : List Cmd → Op → Prop}

@[simp] theorem ensures_await {o : Op} {Q : o.Res → List Cmd → Prop} :
    Ensures (α := no_index o.Res) Φ h (await o) Q ↔ Φ h o ∧ ∀ r, Q r (⟨o, some r⟩ :: h) :=
  ensures_perform _

@[simp] theorem ensures_rethrow {α : Type} {r : Except Thrown α} {Q : α → List Cmd → Prop} :
    Ensures Φ h (rethrow r) Q ↔ ∀ v, r = .ok v → Q v h := by
  cases r <;> simp [rethrow]

@[simp] theorem ensures_plain {α : Type} {r : Except String α} {Q : α → List Cmd → Prop} :
    Ensures Φ h (plain r) Q ↔ ∀ v, r = .ok v → Q v h := by
  cases r <;> simp [plain]

@[simp] theorem ensures_requireAdapter {Q : RemoteCustodyAdapter → List Cmd → Prop} :
    Ensures Φ h (requireAdapter x) Q ↔ ∀ a, x.adapter = some a → Q a h :=
  ensures_orThrow _ _

@[simp] theorem ensures_adapterName {Q : String → List Cmd → Prop} :
    Ensures Φ h (adapterName x) Q ↔ ∀ a, x.adapter = some a → Q a.name h := by
  simp [adapterName]

/-- The loop asks for the public half of each key. -/
theorem ensures_loadKeys (hask : ∀ h' key, Φ h' (.getPublicKey a key)) (remotes : List RemoteKeyDescriptor)
    (y : KeySet) (h : List Cmd) : Ensures Φ h (loadKeys C a y remotes) fun y' h' =>
      ∃ (seg : List Cmd) (ks : List CachedKey), h' = seg ++ h ∧ ks.map (·.remote) = remotes ∧
        (∀ k ∈ ks, FetchedOn C a seg k) ∧ y' = ks.foldl KeySet.add y := by
  induction remotes generalizing y h with
  | nil =>
    rw [loadKeys, ensures_pure]
    exact ⟨[], [], rfl, rfl, by simp, rfl⟩
  | cons remote remotes ih =>
    simp only [loadKeys, ensures_bind, ensures_await, ensures_rethrow]
    refine ⟨hask h remote, fun answer material hanswer publicJwk hjwk => ?_⟩
    subst hanswer
    refine (ih (y.add ⟨remote, describe remote, publicJwk⟩) _).mono fun y' h' hrest => ?_
    obtain ⟨seg, ks, rfl, hremotes, hfetched, rfl⟩ := hrest
    have hseg : seg <:+: seg ++ [⟨.getPublicKey a remote, some (.ok material)⟩] := ⟨[], [_], rfl⟩
    refine ⟨seg ++ [⟨.getPublicKey a remote, some (.ok material)⟩], ⟨remote, describe remote, publicJwk⟩ :: ks,
      by simp, by rw [List.map_cons, hremotes], fun k hk => ?_, rfl⟩
    rcases List.mem_cons.mp hk with rfl | hrest
    · exact ⟨rfl, material, by simp, hjwk⟩
    · obtain ⟨hdescriptor, material', hgiven, hjwk'⟩ := hfetched k hrest
      exact ⟨hdescriptor, material', hseg.subset hgiven, hjwk'⟩

/-- A reload installs what it has read since it began. -/
theorem ensures_reloadFrom (hask : ∀ h' key, Φ h' (.getPublicKey a key)) (hlist : ∀ h', Φ h' (.listKeys a))
    (hinstall : ∀ h' y remotes, LoadedOn C h' remotes y → Φ h' (.install y)) :
    Ensures Φ h (reloadFrom C a) fun _ h' => ReloadedSince C h h' := by
  simp only [reloadFrom, ensures_bind, ensures_await, ensures_rethrow]
  refine ⟨hlist h, fun answer remotes hanswer => ?_⟩
  subst hanswer
  refine (ensures_loadKeys hask remotes .empty _).mono fun y h' hloaded => ?_
  obtain ⟨seg, ks, rfl, hremotes, hfetched, hy⟩ := hloaded
  -- The list comes before the keys.
  have hread : LoadedOn C (seg ++ [⟨.listKeys a, some (.ok remotes)⟩]) remotes y := by
    refine ⟨a, ks, by simp, hremotes, fun k hk => ?_, hy⟩
    obtain ⟨hdescriptor, material, hgiven, hjwk⟩ := hfetched k hk
    exact ⟨hdescriptor, material, List.mem_append_left _ hgiven, hjwk⟩
  have hsplit : seg ++ ⟨.listKeys a, some (.ok remotes)⟩ :: h = (seg ++ [⟨.listKeys a, some (.ok remotes)⟩]) ++ h := by
    simp
  rw [hsplit]
  refine ⟨hinstall _ y remotes ?_, fun _ => ⟨y, remotes, _, rfl, hread⟩⟩
  obtain ⟨a', ks', hlisted, hremotes', hfetched', hy'⟩ := hread
  refine ⟨a', ks', List.mem_append_left _ hlisted, hremotes', fun k hk => ?_, hy'⟩
  obtain ⟨hdescriptor, material, hgiven, hjwk⟩ := hfetched' k hk
  exact ⟨hdescriptor, material, List.mem_append_left _ hgiven, hjwk⟩

/-- A reload within a call. -/
theorem ensures_reload_onPath : Ensures (OnPath C q) h (reloadFrom C a) fun _ h' => ReloadedSince C h h' :=
  ensures_reloadFrom (fun _ _ => trivial) (fun _ => trivial) fun _ _ remotes hl => ⟨remotes, hl⟩

theorem ReloadedSince.suffix (hr : ReloadedSince C h₀ h) : h₀ <:+ h := by
  obtain ⟨x, remotes, seg, rfl, -⟩ := hr
  exact (List.suffix_append seg h₀).trans (List.suffix_cons _ _)

/-- The key to sign with is one that the call has found in the fields. -/
theorem ensures_keyToSign {kid : String} (hview : (⟨.view, some x⟩ : Cmd) ∈ h) :
    Ensures (OnPath C q) h (keyToSign C x a kid) fun k h' => ∃ y, (⟨.view, some y⟩ : Cmd) ∈ h' ∧
      JsMap.get kid y.keySet.keys = some k := by
  unfold keyToSign
  cases hk : JsMap.get kid x.keySet.keys with
  | some k =>
    rw [ensures_pure]
    exact ⟨x, hview, hk⟩
  | none =>
    simp only [ensures_bind]
    refine ensures_reload_onPath.mono fun _ h₁ _ => ?_
    simp only [ensures_await, ensures_orThrow]
    exact ⟨trivial, fun y k hk => ⟨y, List.mem_cons_self, hk⟩⟩

/-- A signature of the right shape has 64 bytes. -/
theorem length_of_assertJwsSignatureShape {signature : Bytes} {alg : SigningAlg} {u : Unit}
    (h : assertJwsSignatureShape signature alg = .ok u) : signature.length = 64 := by
  unfold assertJwsSignatureShape at h
  by_contra hne
  have hexpected : ALG_COORDINATE_BYTES alg * 2 = 64 := by cases alg; rfl
  rw [hexpected, if_pos hne] at h
  simp at h

theorem ensures_sign (kid : String) (data : Bytes) :
    Ensures (OnPath C (.sign kid data)) [] (sign C kid data) fun bytes h => EndsOn C (.sign kid data) h (.signature bytes) := by
  simp only [sign, ensures_bind, ensures_await, ensures_requireAdapter]
  refine ⟨trivial, fun x a _ => ?_⟩
  refine (ensures_keyToSign List.mem_cons_self).mono fun k h₁ hkey => ?_
  obtain ⟨y, hview, hk⟩ := hkey
  refine ⟨⟨kid, y, k, rfl, hview, hk, rfl⟩, fun answer => ?_⟩
  cases answer with
  | error e => exact ensures_throwing _
  | ok raw =>
    simp only [signatureOf, ensures_pure, ensures_plain]
    intro signature hnormal _ hshape
    have hlength := length_of_assertJwsSignatureShape hshape
    generalize k.descriptor.alg = alg at hnormal
    cases alg
    exact ⟨y, k, a, raw, List.mem_cons_of_mem _ hview, hk, List.mem_cons_self, hnormal, hlength⟩

theorem ensures_init : Ensures (OnPath C .init) [] (init C) fun _ h => EndsOn C .init h .done := by
  simp only [init, ensures_bind, ensures_await, ensures_rethrow]
  refine ⟨trivial, fun _ a _ => ⟨trivial, fun _ => ?_⟩⟩
  refine ensures_reload_onPath.mono fun _ h₁ hreloaded => ⟨trivial, fun x => ?_⟩
  simp only [ensures_onlyIf, ensures_bind, ensures_adapterName, ensures_throwing, implies_true, true_and]
  exact fun hactive => ⟨x, h₁, _, rfl, hactive, hreloaded⟩

/-- What the `try` of a health check has done when it goes on. -/
theorem ensures_probe :
    Ensures (OnPath C .healthCheck) h (probe C a) fun early h' =>
      match early with
      | some v => v.healthy = false
      | none => ∃ h₀, ReloadedSince C h₀ h' ∧ h <:+ h₀ ∧ (a.reportsHealth = true →
          ∃ result, (⟨.health a, some (.ok result)⟩ : Cmd) ∈ h₀ ∧ result.healthy = true) := by
  unfold probe
  rw [ensures_ite]
  constructor
  · intro hreports
    simp only [ensures_bind, ensures_await, ensures_rethrow]
    refine ⟨trivial, fun answer result hanswer => ⟨trivial, fun y => ?_⟩⟩
    subst hanswer
    rw [ensures_ite]
    constructor
    · intro hhealthy
      simp only [ensures_bind, ensures_requireAdapter, ensures_pure]
      intro b _
      refine ensures_reload_onPath.mono fun _ h' hreloaded => ⟨_, hreloaded, ⟨[_, _], rfl⟩, fun _ => ?_⟩
      exact ⟨result, List.mem_cons_of_mem _ List.mem_cons_self, hhealthy⟩
    · intro _
      cases result.detail <;> simp
  · intro hreports
    simp only [ensures_bind, ensures_pure]
    refine ensures_reload_onPath.mono fun _ h' hreloaded => ⟨h, hreloaded, List.suffix_rfl, fun h => absurd h hreports⟩

theorem ensures_healthCheck :
    Ensures (OnPath C .healthCheck) [] (healthCheck C) fun v h => EndsOn C .healthCheck h (.health v) := by
  simp only [healthCheck, ensures_bind, ensures_await]
  refine ⟨trivial, fun x => ?_⟩
  cases hadapter : x.adapter with
  | none => exact (ensures_pure _).mpr fun h => absurd h (by simp)
  | some a =>
    simp only [ensures_bind]
    have hprobe := ensures_probe (C := C) (a := a) (h := [⟨.view, some x⟩])
    refine (hprobe.recover fun e h' => ?_).mono fun early h' hearly => ?_
    · -- What the handler of an exception returns is not healthy.
      cases e with
      | typeError => exact ensures_throwing _
      | _ =>
        simp only [probeFailed, ensures_bind, ensures_await, ensures_adapterName, ensures_pure]
        exact ⟨trivial, fun _ _ _ => trivial⟩
    · cases early with
      | some v => exact (ensures_pure _).mpr fun hhealthy => absurd hhealthy (by simp [show v.healthy = false from hearly])
      | none =>
        obtain ⟨h₀, hreloaded, hs, hreports⟩ := hearly
        simp only [ensures_bind, ensures_await, verdict, ensures_adapterName, ensures_ite, ensures_pure]
        refine ⟨trivial, fun y b _ => ⟨fun _ hhealthy => absurd hhealthy (by simp), fun hactive _ => ?_⟩⟩
        exact ⟨y, h', h₀, rfl, ⟨hactive, rfl⟩, hreloaded, x, a, hs.mem List.mem_cons_self, hadapter, hreports⟩

theorem ensures_rotate :
    Ensures (OnPath C .rotate) [] (rotate C) fun r h => EndsOn C .rotate h (.rotation r) := by
  simp only [rotate, reload, ensures_bind, ensures_await, ensures_requireAdapter, ensures_throwIf, ensures_rethrow,
    ensures_pure]
  refine ⟨trivial, fun x a _ hrotates => ?_⟩
  have htrue : a.rotates = true := by simpa using hrotates
  refine ⟨⟨rfl, htrue⟩, fun answer result hanswer => ⟨trivial, fun y b _ => ?_⟩⟩
  subst hanswer
  refine ensures_reload_onPath.mono fun _ h₁ hreloaded => ?_
  have hrotated : (⟨.rotate a, some (.ok result)⟩ : Cmd) ∈ h₁ :=
    hreloaded.suffix.mem (List.mem_cons_of_mem _ List.mem_cons_self)
  refine ⟨⟨a, result, x.keySet.active, hrotated, rfl⟩, fun z => ?_⟩
  exact ⟨a, x.keySet.active, z, h₁, _, rfl, hreloaded, htrue, List.mem_cons_of_mem _ List.mem_cons_self⟩

theorem ensures_close : Ensures (OnPath C .close) [] close fun _ _ => True := by
  simp only [close, ensures_bind, ensures_await]
  refine ⟨trivial, fun adapter => ?_⟩
  cases adapter with
  | none => exact (ensures_pure _).mpr trivial
  | some a => simp [OnPath]

/-- What precedes the commands of every call, and its end. -/
theorem along_handler (C : Setup) (q : Request) :
    Along (OnPath C q) (fun h r => ∀ reply, r = .ok reply → EndsOn C q h reply) [] ((custody C).handler q) := by
  have hreply : ∀ {α : Type} {p : Call α} {f : α → Reply},
      Ensures (OnPath C q) [] p (fun v h => EndsOn C q h (f v)) →
        Ensures (OnPath C q) [] (p >>= fun v => pure (f v)) fun reply h => EndsOn C q h reply := by
    intro α p f hp
    rw [ensures_bind]
    exact hp.mono fun v h hv => (ensures_pure _).mpr hv
  cases q with
  | init => exact hreply (f := fun _ => .done) ensures_init
  | activeKid =>
    refine hreply ?_
    simp only [activeKid, ensures_bind, ensures_await, ensures_orThrow]
    exact ⟨trivial, fun x kid hactive => ⟨x, List.mem_cons_self, hactive⟩⟩
  | listPublicJwks =>
    refine hreply ?_
    simp only [listPublicJwks, ensures_bind, ensures_await, ensures_pure]
    exact ⟨trivial, fun x => ⟨x, List.mem_cons_self, rfl⟩⟩
  | listKeys =>
    refine hreply ?_
    simp only [listKeys, ensures_bind, ensures_await, ensures_pure]
    exact ⟨trivial, fun _ => trivial⟩
  | sign kid data => exact hreply (ensures_sign kid data)
  | healthCheck => exact hreply ensures_healthCheck
  | rotate => exact hreply ensures_rotate
  | close => exact hreply (f := fun _ => .done) (ensures_close.mono fun _ _ _ => trivial)

end Paths

end SdidBridge.Keys.Remote
