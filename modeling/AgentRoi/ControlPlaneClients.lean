/-
The clients of `agent_roi.enterprise.control_plane`: how a signed policy
reaches a runner.

* `ControlPlaneClient` — requests to the control plane, and the bundle an
  answer holds;
* `PolicyBundleCache` — bundles in files, one for each policy and agent;
* `CachedControlPlaneClient` — the client, and the cache where it fails;
* `EnterpriseRunner` — `EnterpriseSentinelRunner`, built from a bundle;
* `Passes` — the document a retrieval goes by, and that it is validly signed;
* `only_asked_iff` — when no retrieval returns a bundle of another policy.

A method of the cache works on the files of its directory and on the world
outside of them: the server, the signers, the clock and the disk.
-/
import AgentRoi.AuditEvent
import AgentRoi.Binary64
import AgentRoi.PolicyPublication

namespace AgentRoi

variable {F W α : Type}

/-- Python's built-in conversions, those of floats among them. -/
class PyValues (F : Type) extends PyFloatOps F, PyBuiltins F

instance : PyValues SmallFloat where
  floatTruthy x := x ≠ .zero
  strOf := Json.repr
  intOf _ := none
  dictOf _ := none

/-! ### Bundles out of documents -/

section

variable [PyValues F]

/-- `value[key]`, of a key that is a text. -/
def Json.item (value : Json F) (key : Str) : Except PyExc (Json F) :=
  match value with
  | .obj members => (dictGet key members).elim (.error (.keyError [key])) .ok
  | _ => .error (.typeError [])

/-- `str(value[key])`. -/
def Json.itemText (value : Json F) (key : Str) : Except PyExc Str :=
  Json.pyStr <$> value.item key

/-- `str(value.get(key, default))`. -/
def Json.getText (value : Json F) (key default : Str) : Str :=
  match value.item key with
  | .ok found => found.pyStr
  | .error _ => default

/-- `dict(value)`.  Names that are no texts are kept as the texts that are
signed for them. -/
def Json.asPolicy : Json F → Except PyExc (Json F)
  | .obj members => .ok (.obj members)
  | value => match PyBuiltins.dictOf value with
    | some items => .ok (.obj (PolicyBundle.normalized items))
    | none => .error (.valueError [])

namespace PolicyBundle

/-- `from_dict`; `now` is the clock of `created_at_utc`. -/
def fromDict (now : PyM W Str) (value : Json F) : PyM W (PolicyBundle F) := do
  let organizationId ← PyM.ofExcept (value.itemText (lit "organization_id"))
  let name ← PyM.ofExcept (value.itemText (lit "name"))
  let environment ← PyM.ofExcept (value.itemText (lit "environment"))
  let version ← PyM.ofExcept (value.itemText (lit "version"))
  let policyItem ← PyM.ofExcept (value.item (lit "policy"))
  let policy ← PyM.ofExcept policyItem.asPolicy
  let digest ← PyM.ofExcept (value.itemText (lit "digest"))
  let signature ← PyM.ofExcept (value.itemText (lit "signature"))
  let signerKeyId ← PyM.ofExcept (value.itemText (lit "signer_key_id"))
  let createdAtUtc ← now
  return {
    key := ⟨organizationId, name, environment⟩
    version := version
    policy := policy
    digest := digest
    signature := signature
    signerKeyId := signerKeyId
    status := value.getText (lit "status") (lit "published")
    createdAtUtc := value.getText (lit "created_at_utc") createdAtUtc
    createdBy := value.getText (lit "created_by") (lit "system") }

end PolicyBundle

/-- The policy a document says it is a bundle of. -/
structure Json.Names (value : Json F) (key : PolicyKey) : Prop where
  organizationId : value.itemText (lit "organization_id") = .ok key.organizationId
  name : value.itemText (lit "name") = .ok key.name
  environment : value.itemText (lit "environment") = .ok key.environment

/-- A bundle is of the policy its document names. -/
theorem PolicyBundle.fromDict_names {now : PyM W Str} {value : Json F} {bundle : PolicyBundle F}
    {o o' : W} (h : fromDict now value o = (.ok bundle, o')) : value.Names bundle.key := by
  unfold fromDict at h
  simp only [PyM.ofExcept_bind_eq_ok] at h
  obtain ⟨organizationId, horganization, name, hname, environment, henvironment, h⟩ := h
  obtain ⟨version, -, policyItem, -, policy, -, digest, -, signature, -, signerKeyId, -, h⟩ := h
  obtain ⟨createdAtUtc, o₁, -, h⟩ := PyM.bind_eq_ok.mp h
  cases h
  exact ⟨horganization, hname, henvironment⟩

/-- A document names one policy at most. -/
theorem Json.Names.unique {value : Json F} {key key' : PolicyKey} (h : value.Names key)
    (h' : value.Names key') : key = key' := by
  have horganization := Except.ok.inj (h.organizationId.symm.trans h'.organizationId)
  have hname := Except.ok.inj (h.name.symm.trans h'.name)
  have henvironment := Except.ok.inj (h.environment.symm.trans h'.environment)
  obtain ⟨o, n, e⟩ := key
  obtain rfl : o = key'.organizationId := horganization
  obtain rfl : n = key'.name := hname
  obtain rfl : e = key'.environment := henvironment
  rfl

end

/-! ### The client -/

/-- What `urlopen` yields.  A body is the text `json.loads` decodes it to. -/
inductive HttpAnswer where
  | empty
  | body (text : Str)
  | httpError (code : ℕ) (detail : Str)
  | osError

/-- `open` is `urlopen` on a GET request, with the headers and the timeout of
the client; what else it raises, decoding included, it raises itself. -/
structure ControlPlaneClient (W : Type) where
  baseUrl : Str
  hash : Sha256
  signer : Option (PolicySigner W)
  urlopen : Str → PyM W HttpAnswer
  utcNow : PyM W Str

/-- A byte as `quote` writes it. -/
def percentByte (b : UInt8) : Str :=
  let digit (d : ℕ) := if d < 10 then 48 + d else 55 + d
  [37, digit (b.toNat / 16), digit (b.toNat % 16)]

/-- `urllib.parse.quote(text, safe="")`. -/
def quote (text : Str) : Except PyExc Str :=
  match encodeUtf8 text with
  | none => .error .unicodeEncodeError
  | some bytes => .ok <| bytes.flatMap fun b =>
    if (48 ≤ b ∧ b ≤ 57) ∨ (65 ≤ b ∧ b ≤ 90) ∨ (97 ≤ b ∧ b ≤ 122) ∨ b ∈ [45, 46, 95, 126] then
      [b.toNat]
    else percentByte b

/-- `urllib.parse.quote_plus`: a space is a plus sign. -/
def quotePlus (text : Str) : Except PyExc Str := do
  let parts ← (text.splitOn 32).mapM quote
  return [43].intercalate parts

namespace ControlPlaneClient

variable (client : ControlPlaneClient W)

section

variable [PyFloat F]

/-- `_request("GET", path)`. -/
def request (path : Str) : PyM W (Json F) := do
  let answer ← client.urlopen (client.baseUrl ++ path)
  match answer with
  | .empty => return .null
  | .body text => .ofExcept (loadsText text)
  | .httpError code detail => .raise (controlPlaneError
      (lit "Control plane returned HTTP " ++ natDigits code ++ lit ": " ++ detail))
  | .osError => .raise (controlPlaneError (lit "Control plane is unavailable"))

/-- The path of a policy, without its last segment. -/
def policyPath (key : PolicyKey) : Except PyExc Str := do
  let organizationId ← quote key.organizationId
  let environment ← quote key.environment
  let name ← quote key.name
  return lit "/v1/organizations/" ++ organizationId ++ lit "/policies/" ++ environment ++ lit "/" ++
    name

/-- What the server answers to `get_active_policy`. -/
def activeDocument (key : PolicyKey) : PyM W (Json F) := do
  let path ← PyM.ofExcept (policyPath key)
  client.request (path ++ lit "/active")

/-- What the server answers to `get_policy_for_agent`. -/
def agentDocument (key : PolicyKey) (agentId : Str) : PyM W (Json F) := do
  let path ← PyM.ofExcept (policyPath key)
  let agent ← PyM.ofExcept (quotePlus agentId)
  client.request (path ++ lit "/resolve?agent_id=" ++ agent)

end

variable [PyValues F]

/-- `if self.signer is not None: bundle.verify(self.signer)`. -/
def check (bundle : PolicyBundle F) : PyM W Unit :=
  match client.signer with
  | none => return ()
  | some signer => bundle.verify client.hash signer

/-- The bundle of a document, once it is checked. -/
def receive (data : Json F) : PyM W (PolicyBundle F) := do
  let bundle ← PolicyBundle.fromDict client.utcNow data
  client.check bundle
  return bundle

def getActivePolicy (key : PolicyKey) : PyM W (PolicyBundle F) := do
  let data ← client.activeDocument key
  client.receive data

def getPolicyForAgent (key : PolicyKey) (agentId : Str) : PyM W (PolicyBundle F) := do
  let data ← client.agentDocument key agentId
  client.receive data

end ControlPlaneClient

/-! ### The age of a cached bundle -/

/-- `max(0.0, (now - saved) / 1000)`. -/
def ageSeconds (now saved : ℤ) : Except PyExc ℚ :=
  match Binary64.round ((now - saved : ℤ) / 1000) with
  | some seconds => .ok (max 0 seconds.value)
  | none => .error .overflowError

/-! ### The cache -/

/-- The files of the cache directory, by their names: a text, or what reading
it raises.  `outside` is the rest of the world. -/
structure ClientWorld (W : Type) where
  files : Str → Option (Except PyExc Str)
  outside : W

/-- A method on the world outside of the cache directory. -/
def beyond (x : PyM W α) : PyM (ClientWorld W) α :=
  .on ClientWorld.outside (fun w o => { w with outside := o }) x

/-- `clock` is `int(time.time() * 1000)`.  `replace` is what the disk does to a
new text of a file, which it may fail to write. -/
structure PolicyBundleCache (W : Type) where
  hash : Sha256
  signer : PolicySigner W
  maxStaleSeconds : ℕ
  clock : PyM W Int
  utcNow : PyM W Str
  replace : Str → Str → PyM W Unit

namespace PolicyBundleCache

variable [PyValues F] (cache : PolicyBundleCache W)

/-- The name of the file `_path` yields. -/
def path (F : Type) [PyValues F] (key : PolicyKey) (agentId : Str) : Except PyExc Str := do
  let digest ← digestValue cache.hash (.ofFields [
    (lit "organization_id", .str key.organizationId), (lit "name", .str key.name),
    (lit "environment", .str key.environment), (lit "agent_id", (.str agentId : PyVal F))])
  return digest ++ lit ".json"

/-- `temporary.write_text(…)` and `temporary.replace(path)`: the file has its
new text when both succeed, and its old one otherwise. -/
def writeFile (file text : Str) : PyM (ClientWorld W) Unit := do
  .ofExcept (bindText text)
  beyond (cache.replace file text)
  .modify fun w => { w with files := Function.update w.files file (some (.ok text)) }

def save (bundle : PolicyBundle F) (agentId : Str) : PyM (ClientWorld W) Unit := do
  beyond (bundle.verify cache.hash cache.signer)
  let file ← PyM.ofExcept (cache.path F bundle.key agentId)
  let now ← beyond cache.clock
  let data ← PyM.ofExcept bundle.toDict
  cache.writeFile file (canonicalJson (.ofFields [
    (lit "cached_at_epoch_ms", .int now), (lit "bundle", .ofFields data)]))

/-- `path.is_file()` and `path.read_text(encoding="utf-8")`. -/
def readFile (file : Str) : PyM (ClientWorld W) Str := do
  let w ← PyM.get
  .ofExcept ((w.files file).elim (.error (.keyError [lit "No cached policy bundle"])) id)

/-- Whether the content of a file is older than it may be. -/
def checkAge (data : Json F) (now : Int) (allowStale : Bool) : Except PyExc Unit := do
  let saved ← data.item (lit "cached_at_epoch_ms")
  let savedAt ← saved.pyInt.elim (.error (.valueError [])) .ok
  let age ← ageSeconds now savedAt
  if cache.maxStaleSeconds < age ∧ allowStale = false then
    .error (controlPlaneError (lit "Cached policy bundle is stale"))
  else return ()

/-- What `load` finds in the file of a policy. -/
def document (key : PolicyKey) (agentId : Str) (allowStale : Bool) :
    PyM (ClientWorld W) (Json F) := do
  let file ← PyM.ofExcept (cache.path F key agentId)
  let text ← readFile file
  let data ← PyM.ofExcept (loadsText text)
  let now ← beyond cache.clock
  PyM.ofExcept (cache.checkAge data now allowStale)
  PyM.ofExcept (data.item (lit "bundle"))

/-- The bundle of a document, verified. -/
def receive (data : Json F) : PyM (ClientWorld W) (PolicyBundle F) := do
  let bundle ← beyond (PolicyBundle.fromDict cache.utcNow data)
  beyond (bundle.verify cache.hash cache.signer)
  return bundle

def load (key : PolicyKey) (agentId : Str) (allowStale : Bool) :
    PyM (ClientWorld W) (PolicyBundle F) := do
  let data ← cache.document key agentId allowStale
  cache.receive data

end PolicyBundleCache

/-! ### The client with a cache -/

structure CachedControlPlaneClient (W : Type) where
  client : ControlPlaneClient W
  cache : PolicyBundleCache W
  allowStaleOnError : Bool

namespace CachedControlPlaneClient

variable [PyValues F] (cached : CachedControlPlaneClient W)

/-- What stands in the `try` of both methods. -/
def fetch (get : PyM W (PolicyBundle F)) (agentId : Str) :
    PyM (ClientWorld W) (PolicyBundle F) := do
  let bundle ← beyond get
  cached.cache.save bundle agentId
  return bundle

/-- `except Exception: return self.cache.load(…)`. -/
def fallBack (key : PolicyKey) (agentId : Str) (e : PyExc) :
    PyM (ClientWorld W) (PolicyBundle F) :=
  if e.isException then cached.cache.load key agentId cached.allowStaleOnError else .raise e

def getActivePolicy (key : PolicyKey) : PyM (ClientWorld W) (PolicyBundle F) :=
  .tryExcept (cached.fetch (cached.client.getActivePolicy key) []) (cached.fallBack key [])

def getPolicyForAgent (key : PolicyKey) (agentId : Str) : PyM (ClientWorld W) (PolicyBundle F) :=
  .tryExcept (cached.fetch (cached.client.getPolicyForAgent key agentId) agentId)
    (cached.fallBack key agentId)

end CachedControlPlaneClient

/-! ### What a retrieval answers from -/

/-- Whether the client is asked, the cache is loaded, or both stand behind the
same method. -/
inductive PolicySource where
  | server
  | file (allowStale : Bool)
  | serverElseFile

section

variable [PyValues F]

/-- `signer` has accepted the bundle. -/
def PolicyBundle.VerifiedBy (bundle : PolicyBundle F) (H : Sha256) (signer : PolicySigner W) :
    Prop := ∃ o o', bundle.verify H signer o = (.ok (), o')

namespace ControlPlaneClient

variable (client : ControlPlaneClient W)

/-- `get_policy_for_agent`, or `get_active_policy` where there is no agent. -/
def get (key : PolicyKey) : Option Str → PyM W (PolicyBundle F)
  | none => client.getActivePolicy key
  | some agentId => client.getPolicyForAgent key agentId

/-- The document the server answers with. -/
def document (key : PolicyKey) : Option Str → PyM W (Json F)
  | none => client.activeDocument key
  | some agentId => client.agentDocument key agentId

theorem get_eq (key : PolicyKey) (agent : Option Str) :
    (client.get key agent : PyM W (PolicyBundle F)) =
      client.document key agent >>= client.receive := by
  cases agent with
  | none => rfl
  | some agentId => rfl

variable {client} {data : Json F} {bundle : PolicyBundle F} {o o' : W}

theorem receive_eq_ok : client.receive data o = (.ok bundle, o') ↔
    ∃ o₁, PolicyBundle.fromDict client.utcNow data o = (.ok bundle, o₁) ∧
      client.check bundle o₁ = (.ok (), o') := by
  unfold receive
  simp only [PyM.bind_eq_ok]
  constructor
  · rintro ⟨read, o₁, hread, ⟨⟩, o₂, hcheck, h⟩
    cases h
    exact ⟨o₁, hread, hcheck⟩
  · rintro ⟨o₁, hread, hcheck⟩
    exact ⟨bundle, o₁, hread, (), o', hcheck, rfl⟩

theorem names_of_receive (h : client.receive data o = (.ok bundle, o')) :
    data.Names bundle.key := by
  obtain ⟨o₁, hread, -⟩ := receive_eq_ok.mp h
  exact PolicyBundle.fromDict_names hread

theorem verifiedBy_of_receive {signer : PolicySigner W} (hsigner : client.signer = some signer)
    (h : client.receive data o = (.ok bundle, o')) : bundle.VerifiedBy client.hash signer := by
  obtain ⟨o₁, -, hcheck⟩ := receive_eq_ok.mp h
  unfold check at hcheck
  rw [hsigner] at hcheck
  exact ⟨o₁, o', hcheck⟩

end ControlPlaneClient

theorem beyond_eq {x : PyM W α} {w w' : ClientWorld W} {r : Except PyExc α} :
    beyond x w = (r, w') ↔ ∃ o, x w.outside = (r, o) ∧ w' = { w with outside := o } := by
  unfold beyond PyM.on
  rw [Prod.mk.injEq]
  constructor
  · rintro ⟨rfl, rfl⟩
    exact ⟨_, rfl, rfl⟩
  · rintro ⟨o, hx, rfl⟩
    rw [hx]
    exact ⟨rfl, rfl⟩

namespace PolicyBundleCache

variable {cache : PolicyBundleCache W} {data : Json F} {bundle : PolicyBundle F}
  {w w' : ClientWorld W}

theorem receive_eq_ok :
    cache.receive data w = (.ok bundle, w') ↔
      ∃ o₁ o', PolicyBundle.fromDict cache.utcNow data w.outside = (.ok bundle, o₁) ∧
        bundle.verify cache.hash cache.signer o₁ = (.ok (), o') ∧
        w' = { w with outside := o' } := by
  unfold receive
  simp only [PyM.bind_eq_ok, beyond_eq]
  constructor
  · rintro ⟨bundle', w₁, ⟨o₁, hread, rfl⟩, ⟨⟩, w₂, ⟨o', hverify, rfl⟩, h⟩
    cases h
    exact ⟨o₁, o', hread, hverify, rfl⟩
  · rintro ⟨o₁, o', hread, hverify, rfl⟩
    exact ⟨bundle, _, ⟨o₁, hread, rfl⟩, (), _, ⟨o', hverify, rfl⟩, rfl⟩

theorem names_of_receive (h : cache.receive data w = (.ok bundle, w')) : data.Names bundle.key := by
  obtain ⟨o₁, o', hread, -⟩ := receive_eq_ok.mp h
  exact PolicyBundle.fromDict_names hread

theorem verifiedBy_of_receive (h : cache.receive data w = (.ok bundle, w')) :
    bundle.VerifiedBy cache.hash cache.signer := by
  obtain ⟨o₁, o', -, hverify, -⟩ := receive_eq_ok.mp h
  exact ⟨o₁, o', hverify⟩

/-- A bundle that was saved was verified first. -/
theorem verifiedBy_of_save {agentId : Str} (h : cache.save bundle agentId w = (.ok (), w')) :
    bundle.VerifiedBy cache.hash cache.signer := by
  obtain ⟨⟨⟩, w₁, hverify, -⟩ := PyM.bind_eq_ok.mp h
  obtain ⟨o, hverify, -⟩ := beyond_eq.mp hverify
  exact ⟨w.outside, o, hverify⟩

end PolicyBundleCache

namespace CachedControlPlaneClient

variable (cached : CachedControlPlaneClient W)

/-- `get_policy_for_agent`, or `get_active_policy` where there is no agent. -/
def get (key : PolicyKey) : Option Str → PyM (ClientWorld W) (PolicyBundle F)
  | none => cached.getActivePolicy key
  | some agentId => cached.getPolicyForAgent key agentId

theorem get_eq (key : PolicyKey) (agent : Option Str) :
    (cached.get key agent : PyM (ClientWorld W) (PolicyBundle F)) =
      .tryExcept (cached.fetch (cached.client.get key agent) (agent.getD []))
        (cached.fallBack key (agent.getD [])) := by
  cases agent with
  | none => rfl
  | some agentId => rfl

def retrieve (key : PolicyKey) (agent : Option Str) :
    PolicySource → PyM (ClientWorld W) (PolicyBundle F)
  | .server => beyond (cached.client.get key agent)
  | .file allowStale => cached.cache.load key (agent.getD []) allowStale
  | .serverElseFile => cached.get key agent

/-- `data` is the document a retrieval goes by, and it is validly signed: the
bundle it holds passes every check. -/
inductive Passes (key : PolicyKey) (agent : Option Str) : PolicySource → ClientWorld W → Json F →
    PolicyBundle F → ClientWorld W → Prop where
  | answered {w data o bundle o'}
      (hanswer : cached.client.document key agent w.outside = (.ok data, o))
      (hvalid : cached.client.receive data o = (.ok bundle, o')) :
      Passes key agent .server w data bundle { w with outside := o' }
  | found {allowStale w data w₁ bundle w'}
      (hfile : cached.cache.document key (agent.getD []) allowStale w = (.ok data, w₁))
      (hvalid : cached.cache.receive data w₁ = (.ok bundle, w')) :
      Passes key agent (.file allowStale) w data bundle w'
  | online {w data o bundle o' w'}
      (hanswer : cached.client.document key agent w.outside = (.ok data, o))
      (hvalid : cached.client.receive data o = (.ok bundle, o'))
      (hsaved : cached.cache.save bundle (agent.getD []) { w with outside := o' } = (.ok (), w')) :
      Passes key agent .serverElseFile w data bundle w'
  | offline {w e w₁ data w₂ bundle w'}
      (hfailed : cached.fetch (F := F) (cached.client.get key agent) (agent.getD []) w =
        (.error e, w₁))
      (he : e.isException = true)
      (hfile : cached.cache.document key (agent.getD []) cached.allowStaleOnError w₁ =
        (.ok data, w₂))
      (hvalid : cached.cache.receive data w₂ = (.ok bundle, w')) :
      Passes key agent .serverElseFile w data bundle w'

variable {cached} {key : PolicyKey} {agent : Option Str} {source : PolicySource}
  {w w' : ClientWorld W} {data : Json F} {bundle : PolicyBundle F}

theorem fallBack_eq_ok {agentId : Str} {e : PyExc} :
    cached.fallBack key agentId e w = (.ok bundle, w') ↔ e.isException = true ∧
      ∃ data w₁, cached.cache.document key agentId cached.allowStaleOnError w = (.ok data, w₁) ∧
        cached.cache.receive data w₁ = (.ok bundle, w') := by
  unfold fallBack
  split
  · next he =>
    rw [PolicyBundleCache.load, PyM.bind_eq_ok]
    exact (and_iff_right he).symm
  · next he =>
    constructor
    · intro h
      cases h
    · exact fun h => absurd h.1 he

theorem fetch_eq_ok :
    cached.fetch (cached.client.get key agent) (agent.getD []) w = (.ok bundle, w') ↔
      ∃ data o o', cached.client.document key agent w.outside = (.ok data, o) ∧
        cached.client.receive data o = (.ok bundle, o') ∧
        cached.cache.save bundle (agent.getD []) { w with outside := o' } = (.ok (), w') := by
  unfold fetch
  simp only [ControlPlaneClient.get_eq, PyM.bind_eq_ok, beyond_eq]
  constructor
  · rintro ⟨bundle', w₁, ⟨o', ⟨data, o, hanswer, hvalid⟩, rfl⟩, ⟨⟩, w₂, hsaved, h⟩
    cases h
    exact ⟨data, o, o', hanswer, hvalid, hsaved⟩
  · rintro ⟨data, o, o', hanswer, hvalid, hsaved⟩
    exact ⟨bundle, _, ⟨o', ⟨data, o, hanswer, hvalid⟩, rfl⟩, (), w', hsaved, rfl⟩

/-- Every retrieval that returns has gone by a document that passes. -/
theorem retrieve_eq_ok :
    cached.retrieve key agent source w = (.ok bundle, w') ↔
      ∃ data, cached.Passes key agent source w data bundle w' := by
  cases source with
  | server =>
    simp only [retrieve, ControlPlaneClient.get_eq, beyond_eq, PyM.bind_eq_ok]
    constructor
    · rintro ⟨o', ⟨data, o, hanswer, hvalid⟩, rfl⟩
      exact ⟨data, .answered hanswer hvalid⟩
    · rintro ⟨data, ⟨hanswer, hvalid⟩⟩
      exact ⟨_, ⟨data, _, hanswer, hvalid⟩, rfl⟩
  | file allowStale =>
    simp only [retrieve, PolicyBundleCache.load, PyM.bind_eq_ok]
    constructor
    · rintro ⟨data, w₁, hfile, hvalid⟩
      exact ⟨data, .found hfile hvalid⟩
    · rintro ⟨data, hpasses⟩
      cases hpasses with
      | found hfile hvalid => exact ⟨data, _, hfile, hvalid⟩
  | serverElseFile =>
    simp only [retrieve, get_eq, PyM.tryExcept_eq_ok, fetch_eq_ok, fallBack_eq_ok]
    constructor
    · rintro (⟨data, o, o', hanswer, hvalid, hsaved⟩ | ⟨e, w₁, hfailed, he, data, w₂, hfile, hvalid⟩)
      · exact ⟨data, .online hanswer hvalid hsaved⟩
      · exact ⟨data, .offline hfailed he hfile hvalid⟩
    · rintro ⟨data, hpasses⟩
      cases hpasses with
      | online hanswer hvalid hsaved => exact .inl ⟨data, _, _, hanswer, hvalid, hsaved⟩
      | offline hfailed he hfile hvalid =>
        exact .inr ⟨_, _, hfailed, he, data, _, hfile, hvalid⟩

/-- A bundle is of the policy its document names. -/
theorem Passes.names (h : cached.Passes key agent source w data bundle w') :
    data.Names bundle.key := by
  cases h with
  | answered _ hvalid => exact ControlPlaneClient.names_of_receive hvalid
  | found _ hvalid => exact PolicyBundleCache.names_of_receive hvalid
  | online _ hvalid _ => exact ControlPlaneClient.names_of_receive hvalid
  | offline _ _ _ hvalid => exact PolicyBundleCache.names_of_receive hvalid

/-- Who checks the bundles of a source: the client its answers, the cache its
files and what it saves. -/
def Verified (cached : CachedControlPlaneClient W) (signer : PolicySigner W) :
    PolicySource → PolicyBundle F → Prop
  | .server, bundle => bundle.VerifiedBy cached.client.hash signer
  | .file _, bundle | .serverElseFile, bundle =>
    bundle.VerifiedBy cached.cache.hash cached.cache.signer

theorem Passes.verified {signer : PolicySigner W} (hsigner : cached.client.signer = some signer)
    (h : cached.Passes key agent source w data bundle w') :
    cached.Verified signer source bundle := by
  cases h with
  | answered _ hvalid => exact ControlPlaneClient.verifiedBy_of_receive hsigner hvalid
  | found _ hvalid => exact PolicyBundleCache.verifiedBy_of_receive hvalid
  | online _ _ hsaved => exact PolicyBundleCache.verifiedBy_of_save hsaved
  | offline _ _ _ hvalid => exact PolicyBundleCache.verifiedBy_of_receive hvalid

/-! ### The runner -/

variable (cached)

/-- A retrieval that returns yields a bundle that verifies, of the policy that
was asked for. -/
def OnlyAsked (F : Type) [PyValues F] (signer : PolicySigner W) (source : PolicySource)
    (key : PolicyKey) (agent : Option Str) (w : ClientWorld W) : Prop :=
  ∀ (bundle : PolicyBundle F) w', cached.retrieve key agent source w = (.ok bundle, w') →
    cached.Verified signer source bundle ∧ bundle.key = key

end CachedControlPlaneClient

/-- What `EnterpriseSentinelRunner` keeps of its policy. -/
structure EnterpriseRunner (F : Type) where
  policyBundle : PolicyBundle F
  policy : Policy F
  organizationId : Str
  environment : Str
  agentId : Str

namespace EnterpriseRunner

/-- The policy a runner of the bundle runs under.  `refuse` is what
`SentinelRunner` makes of this policy and of the arguments that say nothing
about policies. -/
def policyOf (refuse : Policy F → Except PyExc Unit) (bundle : PolicyBundle F) :
    Except PyExc (Policy F) := do
  let members ← asDict bundle.policy
  let policy ← policyFromMapping (bundle.key.name ++ lit "@" ++ bundle.version) members
  refuse policy
  return policy

/-- `from_control_plane`, of a client alone or with a cache. -/
def fromControlPlane (refuse : Policy F → Except PyExc Unit)
    (cached : CachedControlPlaneClient W) (source : PolicySource)
    (organizationId policyName environment agentId : Str) :
    PyM (ClientWorld W) (EnterpriseRunner F) := do
  let bundle ← cached.retrieve ⟨organizationId, policyName, environment⟩ (some agentId) source
  let policy ← PyM.ofExcept (policyOf refuse bundle)
  return {
    policyBundle := bundle
    policy := policy
    organizationId := strip organizationId
    environment := strip environment
    agentId := strip agentId }

/-- A runner that is built has a bundle that verifies, of the policy that was
asked for. -/
def OnlyAsked (refuse : Policy F → Except PyExc Unit) (cached : CachedControlPlaneClient W)
    (signer : PolicySigner W) (source : PolicySource)
    (organizationId policyName environment agentId : Str) (w : ClientWorld W) : Prop :=
  ∀ runner w', fromControlPlane refuse cached source organizationId policyName environment agentId
      w = (.ok runner, w') →
    cached.Verified signer source runner.policyBundle ∧
      runner.policyBundle.key = ⟨organizationId, policyName, environment⟩

theorem fromControlPlane_eq_ok {refuse : Policy F → Except PyExc Unit}
    {cached : CachedControlPlaneClient W} {source : PolicySource}
    {organizationId policyName environment agentId : Str} {w w' : ClientWorld W}
    {bundle : PolicyBundle F} :
    (∃ runner, fromControlPlane refuse cached source organizationId policyName environment agentId
        w = (.ok runner, w') ∧ runner.policyBundle = bundle) ↔
      cached.retrieve ⟨organizationId, policyName, environment⟩ (some agentId) source w =
        (.ok bundle, w') ∧ (policyOf refuse bundle).isOk = true := by
  unfold fromControlPlane
  simp only [PyM.bind_eq_ok, PyM.ofExcept_apply, Prod.mk.injEq]
  constructor
  · rintro ⟨runner, ⟨bundle', w₁, hretrieve, policy, w₂, ⟨hpolicy, rfl⟩, h⟩, rfl⟩
    cases h
    exact ⟨hretrieve, by rw [hpolicy]; rfl⟩
  · rintro ⟨hretrieve, hok⟩
    cases hpolicy : policyOf refuse bundle with
    | error e =>
      rw [hpolicy] at hok
      cases hok
    | ok policy => exact ⟨_, ⟨bundle, w', hretrieve, policy, w', ⟨hpolicy, rfl⟩, rfl⟩, rfl⟩

end EnterpriseRunner

/-- What a retrieval returns verifies.  It is the policy that was asked for
exactly where the document it goes by names that policy, and so with the
runners built from it: a validly signed bundle of another policy is accepted. -/
theorem only_asked_iff {cached : CachedControlPlaneClient W} {signer : PolicySigner W}
    (hsigner : cached.client.signer = some signer) (refuse : Policy F → Except PyExc Unit)
    (source : PolicySource) (key : PolicyKey) (w : ClientWorld W) :
    (∀ agent, cached.OnlyAsked F signer source key agent w ↔
      ∀ (data : Json F) bundle w', cached.Passes key agent source w data bundle w' →
        data.Names key) ∧
    ∀ agentId, EnterpriseRunner.OnlyAsked refuse cached signer source key.organizationId key.name
        key.environment agentId w ↔
      ∀ (data : Json F) bundle w', cached.Passes key (some agentId) source w data bundle w' →
        (EnterpriseRunner.policyOf refuse bundle).isOk = true → data.Names key := by
  refine ⟨fun agent => ⟨fun h data bundle w' hpasses => ?_, fun h bundle w' hretrieve => ?_⟩,
    fun agentId => ⟨fun h data bundle w' hpasses hok => ?_, fun h runner w' hrunner => ?_⟩⟩
  · obtain ⟨-, hkey⟩ := h bundle w' (CachedControlPlaneClient.retrieve_eq_ok.mpr ⟨data, hpasses⟩)
    exact hkey ▸ hpasses.names
  · obtain ⟨data, hpasses⟩ := CachedControlPlaneClient.retrieve_eq_ok.mp hretrieve
    exact ⟨hpasses.verified hsigner, hpasses.names.unique (h data bundle w' hpasses)⟩
  · have hretrieve := CachedControlPlaneClient.retrieve_eq_ok.mpr ⟨data, hpasses⟩
    obtain ⟨runner, hrunner, rfl⟩ := EnterpriseRunner.fromControlPlane_eq_ok.mpr ⟨hretrieve, hok⟩
    obtain ⟨-, hkey⟩ := h runner w' hrunner
    have hnames := hpasses.names
    rw [hkey] at hnames
    exact hnames
  · obtain ⟨hretrieve, hok⟩ :=
      EnterpriseRunner.fromControlPlane_eq_ok.mp ⟨runner, hrunner, rfl⟩
    obtain ⟨data, hpasses⟩ := CachedControlPlaneClient.retrieve_eq_ok.mp hretrieve
    exact ⟨hpasses.verified hsigner, hpasses.names.unique (h data _ w' hpasses hok)⟩

end

/-! ### A response of another organization -/

/-- The bundle of organization `b`, signed. -/
def otherBundle : PolicyBundle SmallFloat where
  key := ⟨lit "b", lit "p", lit "prod"⟩
  version := lit "1"
  policy := .obj (PolicyBundle.normalized samplePolicy)
  digest := List.replicate 64 48
  signature := List.replicate 64 48
  signerKeyId := lit "k"
  status := lit "published"
  createdAtUtc := lit "2024-01-01T00:00:00+00:00"
  createdBy := lit "admin"

def sampleSigner : PolicySigner Unit := hmacSigner (default : Sha256).hexdigest (lit "k")

/-- A server that answers every request with the bundle of organization `b`. -/
def otherServer : CachedControlPlaneClient Unit where
  client := {
    baseUrl := lit "http://localhost"
    hash := default
    signer := some sampleSigner
    urlopen _ := return .body ((otherBundle.toDict.toOption.map fun data =>
      canonicalJson (.ofFields data)).getD [])
    utcNow := return [] }
  cache := {
    hash := default
    signer := sampleSigner
    maxStaleSeconds := 60
    clock := return 0
    utcNow := return []
    replace _ _ := return () }
  allowStaleOnError := false

/-- A client of organization `b` is answered with its own policy. -/
theorem only_asked_own :
    otherServer.OnlyAsked SmallFloat sampleSigner .server otherBundle.key none ⟨fun _ => none, ()⟩ := by
  refine ((only_asked_iff rfl (fun _ => .ok ()) .server otherBundle.key _).1 none).mpr ?_
  intro data bundle w' hpasses
  have hrun : (otherServer.retrieve (F := SmallFloat) otherBundle.key none .server
      ⟨fun _ => none, ()⟩).1.toOption.map PolicyBundle.key = some otherBundle.key := by
    decide +kernel
  rw [CachedControlPlaneClient.retrieve_eq_ok.mpr ⟨data, hpasses⟩] at hrun
  exact Option.some.inj hrun ▸ hpasses.names

/-- A client of organization `a` takes the policy of `b`, and so does a runner. -/
theorem only_asked_misses :
    ¬ otherServer.OnlyAsked SmallFloat sampleSigner .server ⟨lit "a", lit "p", lit "prod"⟩ none
      ⟨fun _ => none, ()⟩ ∧
    ¬ EnterpriseRunner.OnlyAsked (F := SmallFloat) (fun _ => .ok ()) otherServer sampleSigner
      .serverElseFile (lit "a") (lit "p") (lit "prod") (lit "agent") ⟨fun _ => none, ()⟩ := by
  have hother : lit "b" ≠ lit "a" := by decide
  constructor
  · intro h
    have hrun : (otherServer.retrieve (F := SmallFloat) ⟨lit "a", lit "p", lit "prod"⟩ none .server
        ⟨fun _ => none, ()⟩).1.toOption.map (fun bundle => bundle.key.organizationId) =
          some (lit "b") := by
      decide +kernel
    obtain ⟨bundle, w', hretrieve, hb⟩ := PyM.exists_of_map_eq_some hrun
    obtain ⟨-, hkey⟩ := h bundle w' hretrieve
    exact hother (hb.symm.trans (congrArg PolicyKey.organizationId hkey))
  · intro h
    have hrun : (EnterpriseRunner.fromControlPlane (F := SmallFloat) (fun _ => .ok ()) otherServer
        .serverElseFile (lit "a") (lit "p") (lit "prod") (lit "agent")
        ⟨fun _ => none, ()⟩).1.toOption.map (fun runner => runner.policyBundle.key.organizationId) =
          some (lit "b") := by
      decide +kernel
    obtain ⟨runner, w', hrunner, hb⟩ := PyM.exists_of_map_eq_some hrun
    obtain ⟨-, hkey⟩ := h runner w' hrunner
    exact hother (hb.symm.trans (congrArg PolicyKey.organizationId hkey))

end AgentRoi
