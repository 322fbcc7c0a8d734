import Mathlib.Logic.Function.Basic
import SdidBridge.Concurrent.System
import SdidBridge.Mobile.Client

/-!
# The phone

The state that the client's calls work on: the session in memory, the stored binding, and the keys of the
key store by their aliases. What comes from outside, the answers of the broker through the transport
included, is chosen freely at each call on a seam; a local store that fails leaves its contents as they
were. `phone` is the machine of all calls on the client, in any order and overlapping in any way.
-/

namespace SdidBridge.Mobile

open Concurrent Prog

/-- The phone. -/
structure Phone where
  /-- The client's session variable. -/
  session : Option Session
  /-- The stored binding. -/
  persisted : Option PersistedBinding
  /-- Which key of the secure element an alias names. -/
  keys : String → Option ℕ
  /-- The next key that is generated. -/
  nextKey : ℕ
  /-- The tokens that logins have obtained, each with the binding that it was obtained for. -/
  granted : List (String × String)

/-- What the world answers: anything at each call. -/
abbrev World : Type := (o : Command) → Option (Answer o)

/-- The text at a member of a request's body. -/
def HttpRequest.text (request : HttpRequest) (key : String) : Option String :=
  request.body.bind fun body => zString (member body key)

/-- The token that an answered request obtains, with the binding that it names: only a login does. -/
def grantOf (request : HttpRequest) : Option SendResult → Option (String × String)
  | some (.response response) =>
    if request.endpoint = .login then
      match readResponse (loginCall "" "" "") response, request.text "bindingId" with
      | .ok result, some bindingId => some (result.sessionToken, bindingId)
      | _, _ => none
    else none
  | _ => none

/-- One call on a seam. -/
def Phone.exec (world : World) (s : Phone) : (o : Command) → Option (Option (Answer o) × Phone)
  | .generate keyAlias attestationChallenge =>
    let answer := world (.generate keyAlias attestationChallenge)
    some (answer, match answer with
      | some (.ok _) =>
        { s with keys := Function.update s.keys keyAlias (some s.nextKey), nextKey := s.nextKey + 1 }
      | _ => s)
  | .deleteKey keyAlias =>
    let answer := world (.deleteKey keyAlias)
    some (answer, match answer with
      | some (.ok ()) => { s with keys := Function.update s.keys keyAlias none }
      | _ => s)
  | .send idempotency request =>
    let answer := world (.send idempotency request)
    some (answer, { s with granted := (grantOf request answer).toList ++ s.granted })
  | .load => some ((world .load).map fun _ => s.persisted, s)
  | .save binding =>
    let answer := world (.save binding)
    some (answer, if answer = some () then { s with persisted := some binding } else s)
  | .clear =>
    let answer := world .clear
    some (answer, if answer = some () then { s with persisted := none } else s)
  | .session => some (some s.session, s)
  | .setSession session => some (some (), { s with session := session })
  | o => some (world o, s)

/-! ## What a call on a seam leaves alone -/

section Frame

variable {world : World} {s s' : Phone} {o : Command} {r : Option (Answer o)}

/-- Only an assignment changes the session. -/
theorem exec_session (hx : Phone.exec world s o = some (r, s')) (ho : ∀ x, o ≠ .setSession x) :
    s'.session = s.session := by
  cases o
  case setSession x => exact absurd rfl (ho x)
  all_goals
    simp only [Phone.exec, Option.some.injEq, Prod.mk.injEq] at hx
    obtain ⟨-, rfl⟩ := hx
    first
      | rfl
      | split <;> rfl

/-- Only `save` and `clear` change the stored binding. -/
theorem exec_persisted (hx : Phone.exec world s o = some (r, s')) (hs : ∀ b, o ≠ .save b) (hc : o ≠ .clear) :
    s'.persisted = s.persisted := by
  cases o
  case save b => exact absurd rfl (hs b)
  case clear => exact absurd rfl hc
  all_goals
    simp only [Phone.exec, Option.some.injEq, Prod.mk.injEq] at hx
    obtain ⟨-, rfl⟩ := hx
    first
      | rfl
      | split <;> rfl

/-- Only the key store changes the keys. -/
theorem exec_keys (hx : Phone.exec world s o = some (r, s')) (hg : ∀ a n, o ≠ .generate a n)
    (hd : ∀ a, o ≠ .deleteKey a) : s'.keys = s.keys := by
  cases o
  case generate a n => exact absurd rfl (hg a n)
  case deleteKey a => exact absurd rfl (hd a)
  all_goals
    simp only [Phone.exec, Option.some.injEq, Prod.mk.injEq] at hx
    obtain ⟨-, rfl⟩ := hx
    first
      | rfl
      | split <;> rfl

/-- Only the key store generates keys. -/
theorem exec_nextKey (hx : Phone.exec world s o = some (r, s')) (hg : ∀ a n, o ≠ .generate a n) :
    s'.nextKey = s.nextKey := by
  cases o
  case generate a n => exact absurd rfl (hg a n)
  all_goals
    simp only [Phone.exec, Option.some.injEq, Prod.mk.injEq] at hx
    obtain ⟨-, rfl⟩ := hx
    first
      | rfl
      | split <;> rfl

/-- A token stays granted. -/
theorem exec_granted (hx : Phone.exec world s o = some (r, s')) : s.granted ⊆ s'.granted := by
  cases o
  all_goals
    simp only [Phone.exec, Option.some.injEq, Prod.mk.injEq] at hx
    obtain ⟨-, rfl⟩ := hx
    first
      | exact List.Subset.refl _
      | exact List.subset_append_right _ _
      | split <;> exact List.Subset.refl _

/-- What is loaded is what is stored. -/
theorem exec_load {stored : Option PersistedBinding} (hx : Phone.exec world s .load = some (some stored, s')) :
    stored = s.persisted ∧ s' = s := by
  simp only [Phone.exec, Option.some.injEq, Prod.mk.injEq] at hx
  obtain ⟨hload, rfl⟩ := hx
  obtain ⟨-, -, rfl⟩ := Option.map_eq_some_iff.mp hload
  exact ⟨rfl, rfl⟩

/-- The session is read from memory. -/
theorem exec_readSession {session : Option (Option Session)} (hx : Phone.exec world s .session = some (session, s')) :
    session = some s.session ∧ s' = s := by
  simp only [Phone.exec, Option.some.injEq, Prod.mk.injEq] at hx
  exact ⟨hx.1.symm, hx.2.symm⟩

/-- An assignment of the session does not fail. -/
theorem exec_setSession {session : Option Session} {r : Option Unit}
    (hx : Phone.exec world s (.setSession session) = some (r, s')) : r = some () ∧ s' = { s with session := session } := by
  simp only [Phone.exec, Option.some.injEq, Prod.mk.injEq] at hx
  exact ⟨hx.1.symm, hx.2.symm⟩

end Frame

/-- The phone when the app starts: there is no session, and what is stored is what was stored. -/
def Phone.start (persisted : Option PersistedBinding) (keys : String → Option ℕ) (nextKey : ℕ) : Phone where
  session := none
  persisted := persisted
  keys := keys
  nextKey := nextKey
  granted := []

/-- The calls on the client of a phone. -/
def phone (opts : ProtocolClientOptions) (init : Phone) : Machine Command Answer Thrown Unit ClientCall Phone World where
  handler := ClientCall.method opts
  exec := Phone.exec
  fallible := fun _ => false
  env := fun _ _ => none
  init := init

/-! ## A phone to run -/

/-- The default options, with texts that are their keys. -/
def sampleOptions : ProtocolClientOptions where
  retry := ⟨3, 300, 4000⟩
  keyAlias := "sdid.bridge.device.v1"
  minKeySecurityLevel := .tee
  biometrics := false
  t := id
  parseDate := fun text => if text = "2026-08-26T10:02:00.000Z" then some 1787738520000 else none

/-- The binding that the phone is enrolled with. -/
def sampleBinding : PersistedBinding where
  bindingId := "018f5c00-0000-7000-8000-000000000001"
  keyAlias := "sdid.bridge.device.v1"
  deviceLabel := "Test Phone"
  assuranceLevel := .AL2
  enrolledAt := "2026-08-26T09:00:00.000Z"

/-- An enrolled phone whose app has just started. Its key is the key 7. -/
def samplePhone : Phone :=
  .start (some sampleBinding) (fun keyAlias => if keyAlias = "sdid.bridge.device.v1" then some 7 else none) 8

/-- A transaction that asks for an approval. -/
def sampleTransaction : PendingTransaction where
  authReqId := "authreq-1"
  rpName := "Irembo"
  rpLogoUri := none
  scopes := ["openid"]
  scopeDescriptions := ["Confirm your identity"]
  bindingMessage := some "Login to Irembo"
  requestedAssurance := .AL2
  createdAt := "2026-08-26T10:00:00.000Z"
  expiresAt := "2026-08-26T10:03:00.000Z"
  challenge :=
    { challengeId := "ciba-chal-1"
      nonce := "ciba-nonce-1"
      approvePayload := "sdid-bridge:v1:ciba-approve:authreq-1:ciba-chal-1:ciba-nonce-1"
      denyPayload := "sdid-bridge:v1:ciba-deny:authreq-1:ciba-chal-1:ciba-nonce-1"
      expiresAt := "2026-08-26T10:02:00.000Z" }

/-- A successful answer. -/
def reply (members : List (String × JsValue)) : SendResult := .response ⟨200, .text (some (.obj members))⟩

/-- An answer with an error. -/
def refusal (status : ℕ) (code : ErrorCode) : SendResult :=
  .response ⟨status, .text (some (.obj [("error", .str code.text)]))⟩

/-- The broker's answers when all is well. A login for another binding than the sample's has another token. -/
def sampleBroker (request : HttpRequest) : SendResult :=
  match request.endpoint with
  | .attestationChallenge => reply [("nonceId", .str "attnonce-1"), ("nonce", .str "nonce"), ("expiresAt", .str "")]
  | .enrolStart => reply [("bindingId", .str "018f5c00-0000-7000-8000-000000000002"), ("assuranceLevel", .str "AL2"),
      ("activationChallenge", .obj [("challengeId", .str "act-chal-1"), ("nonce", .str "act-nonce-1"),
        ("payload", .str "sdid-bridge:v1:activation:act-chal-1:act-nonce-1"), ("expiresAt", .str "")])]
  | .enrolActivate => reply [("bindingId", .str "018f5c00-0000-7000-8000-000000000002"), ("status", .str "active")]
  | .loginChallenge => reply [("challengeId", .str "login-chal-1"), ("nonce", .str "login-nonce-1"),
      ("payload", .str "sdid-bridge:v1:login:login-chal-1:login-nonce-1"), ("expiresAt", .str "soon")]
  | .login => reply [("sessionToken", .str (if request.text "bindingId" = some sampleBinding.bindingId then
      "session-token-1" else "session-token-2")), ("expiresIn", .nat 900)]
  | .cibaPending => reply [("transactions", .arr [])]
  | .cibaDecision => reply [("status", .str "denied")]
  | .bindings => reply [("devices", .arr [])]
  | .revokeBinding => reply [("status", .str "revoked")]
  | .consents => reply [("consents", .arr [])]
  | .revokeConsent => reply [("status", .str "revoked")]
  | .activity => reply [("events", .arr [])]

/-- A world in which everything works, with a broker. It is ten o'clock. -/
def worldOf (broker : HttpRequest → SendResult) : World
  | .keyStoreCapabilities => some (.ok ⟨true, .tee⟩)
  | .biometricCapabilities => some (.ok ⟨true, true, true⟩)
  | .generate _ _ => some (.ok ⟨⟨"EC", "P-256", "x", "y"⟩, .tee, none⟩)
  | .attest _ => some (.ok ⟨"android", "token", none⟩)
  | .capture _ _ => some (.ok ())
  | .toDto => some (.ok ⟨"face", "AAAA", "active-blink", .zero⟩)
  | .dispose => some ()
  | .send _ request => some (broker request)
  | .random => some 0
  | .sleep _ => some ()
  | .sign _ _ _ => some (.ok "signature")
  | .deleteKey _ => some (.ok ())
  | .now => some 1787738400000
  | .load => some none
  | .save _ => some ()
  | .clear => some ()
  | .session => some none
  | .setSession _ => some ()

/-- The call `t` runs for `n` calls on the seams, each answered by the same world. -/
def goes (world : World) (t n : ℕ) : List (Move ClientCall World) := List.replicate n (.go t world)

end SdidBridge.Mobile
