import PTBridge.Configuration
import PTBridge.Obfs.Identity
import Mathlib.Data.List.Forall2

/-!
# `main/ptbridge.go`: certificates of the obfs4 servers

At the start, `ensureServerCerts` generates an identity for every obfs4 server entry without a
certificate and writes the configuration back. It looks at `Cert` only, and sets `Cert` and
`PrivateKey`.

- `fillCerts` is the loop over the server entries, `ensureServerCerts` all of the function.
- `Filled`: what becomes of an entry. `fillCerts_filled` goes over the entries by it.
- `Preserved`: nothing that was configured is lost, the certificates are there, the file holds
  them, and another run has nothing to do.
- `ensureServerCerts_preserves_iff`: this is so exactly if no obfs4 entry has a private key without
  a certificate.
-/

namespace PTBridge.Obfs

open PTBridge.Stream PTBridge.Encoding PTBridge.Encoding.JsonRecord PTBridge.Configuration

/-- The transport type `obfs4`. -/
def obfs4 : Bytes := [111, 98, 102, 115, 52]

/-- `ntor.PrivateKey` -/
structure PrivateKey where
  bytes : Bytes
  length : bytes.length = 32

/-- What a call of `GenerateIdentity` draws. -/
structure Identity where
  nodeID : NodeID
  pub : PublicKey
  priv : PrivateKey

/-- The two texts that `GenerateIdentity` returns. -/
def Identity.cert (d : Identity) : Bytes := (generateIdentity d.nodeID d.pub d.priv.bytes).1

def Identity.privateKey (d : Identity) : Bytes := (generateIdentity d.nodeID d.pub d.priv.bytes).2

/-! ## The code -/

/-- The entry is an obfs4 server without a certificate. -/
def NeedsCert (s : ServerConfig) : Prop := s.type = obfs4 ∧ s.cert = []

instance (s : ServerConfig) : Decidable (NeedsCert s) := inferInstanceAs (Decidable (_ ∧ _))

/-- The entry with a generated identity. -/
def withIdentity (s : ServerConfig) (d : Identity) : ServerConfig :=
  { s with cert := d.cert, privateKey := d.privateKey }

/-- The loop of `ensureServerCerts` from the `k`-th call of `GenerateIdentity` on, where `draws` is
what the calls draw: the entries, and whether one was changed. `none` is the fatal error of a call
that fails. -/
def fillCerts (draws : Nat → Option Identity) :
    Nat → List ServerConfig → Option (List ServerConfig × Bool)
  | _, [] => some ([], false)
  | k, s :: rest =>
      if s.type ≠ obfs4 ∨ s.cert ≠ [] then
        (fillCerts draws k rest).map fun (filled, dirty) => (s :: filled, dirty)
      else
        match draws k with
        | none => none
        | some d =>
            (fillCerts draws (k + 1) rest).map fun (filled, _) => (withIdentity s d :: filled, true)

inductive EnsureOutcome where
  /-- it returns, with the configuration it leaves and what it has saved -/
  | returned (config : Config) (saved : Option Json)
  /-- `Failed to generate obfs4 certificate` -/
  | generateFailed
  /-- `Failed to save generated certificates` -/
  | saveFailed

/-- `ensureServerCerts`; `write` says whether `os.WriteFile` succeeds. -/
def ensureServerCerts (draws : Nat → Option Identity) (write : Bool) (config : Config) :
    EnsureOutcome :=
  match fillCerts draws 0 config.server with
  | none => .generateFailed
  | some (server, dirty) =>
      let config := { config with server := server }
      if dirty then
        if write then .returned config (some (save config)) else .saveFailed
      else .returned config none

/-! ## One entry -/

section Entry

variable {draws : Nat → Option Identity} {s s' : ServerConfig}

/-- A generated certificate is not empty: with its padding it decodes to the identity. -/
theorem Identity.cert_ne_nil (d : Identity) : d.cert ≠ [] := by
  intro hnil
  have hdecode := decode_cert d.nodeID d.pub
  have hcert : encodeObfs4Cert d.nodeID d.pub = [] := hnil
  rw [hcert] at hdecode
  have hnone : Base64.decode ([] ++ certPadding) = none := by decide
  rw [hnone] at hdecode
  cases hdecode

/-- What becomes of an entry. -/
def Filled (draws : Nat → Option Identity) (s s' : ServerConfig) : Prop :=
  if NeedsCert s then ∃ k d, draws k = some d ∧ s' = withIdentity s d else s' = s

theorem Filled.settled (h : Filled draws s s') : ¬ NeedsCert s' := by
  unfold Filled at h
  split at h
  · obtain ⟨k, d, -, rfl⟩ := h
    exact fun hneeds => d.cert_ne_nil hneeds.2
  · rename_i hno
    rwa [h]

/-- The fields behind an identity: two of them are replaced. -/
theorem values_withIdentity (s : ServerConfig) (d : Identity) :
    (withIdentity s d).values = (s.values.set 4 (.text d.cert)).set 5 (.text d.privateKey) := rfl

/-- An identity replaces nothing that was set, unless there was a private key. -/
theorem keeps_withIdentity (d : Identity) (hcert : s.cert = []) (hkey : s.privateKey = []) :
    serverRecord.Keeps s (withIdentity s d) := by
  intro i v hv hset
  have hcert' : s.values[4]? = some (.text []) := congrArg (some ∘ Value.text) hcert
  have hkey' : s.values[5]? = some (.text []) := congrArg (some ∘ Value.text) hkey
  have hempty : ∀ {j : Nat}, s.values[j]? = some (.text []) → j ≠ i := by
    rintro j hj rfl
    have hv' : s.values[j]? = some v := hv
    rw [hj] at hv'
    cases hv'
    cases hset
  change (withIdentity s d).values[i]? = some v
  rw [values_withIdentity, List.getElem?_set_ne (hempty hkey'), List.getElem?_set_ne (hempty hcert')]
  exact hv

/-- A private key that is kept is the one that was there. -/
theorem privateKey_of_keeps (h : serverRecord.Keeps s s') (hkey : s.privateKey ≠ []) :
    s'.privateKey = s.privateKey := by
  have hvalue := h 5 (.text s.privateKey) rfl (by simpa [Value.isEmpty] using hkey)
  exact Value.text.inj (Option.some.inj hvalue)

end Entry

/-! ## The loop -/

section Loop

variable {draws : Nat → Option Identity} {server server' : List ServerConfig} {dirty : Bool}

theorem not_needsCert_iff {s : ServerConfig} : ¬ NeedsCert s ↔ s.type ≠ obfs4 ∨ s.cert ≠ [] :=
  not_and_or

theorem fillCerts_filled {k : Nat} (h : fillCerts draws k server = some (server', dirty)) :
    List.Forall₂ (Filled draws) server server' ∧ (dirty = true ↔ ∃ s ∈ server, NeedsCert s) := by
  induction server generalizing k server' dirty with
  | nil =>
    cases h
    exact ⟨.nil, by simp⟩
  | cons s rest ih =>
    rw [fillCerts] at h
    split at h
    · rename_i hskip
      have hno := not_needsCert_iff.mpr hskip
      obtain ⟨⟨filled, dirty'⟩, hrest, heq⟩ := Option.map_eq_some_iff.mp h
      cases heq
      obtain ⟨hfilled, hdirty⟩ := ih hrest
      exact ⟨.cons (by simp [Filled, hno]) hfilled, by simp [hdirty, hno]⟩
    · rename_i hfill
      have hneeds : NeedsCert s := by_contra fun hno => hfill (not_needsCert_iff.mp hno)
      split at h
      · cases h
      · rename_i d hd
        obtain ⟨⟨filled, dirty'⟩, hrest, heq⟩ := Option.map_eq_some_iff.mp h
        cases heq
        obtain ⟨hfilled, -⟩ := ih hrest
        refine ⟨.cons ?_ hfilled, by simp [hneeds]⟩
        rw [Filled, if_pos hneeds]
        exact ⟨k, d, hd, rfl⟩

/-- Nothing to do. -/
theorem fillCerts_settled (k : Nat) (h : ∀ s ∈ server, ¬ NeedsCert s) :
    fillCerts draws k server = some (server, false) := by
  induction server with
  | nil => rfl
  | cons s rest ih =>
    have hskip := not_needsCert_iff.mp (h s List.mem_cons_self)
    rw [fillCerts, if_pos hskip, ih fun s' hs' => h s' (List.mem_cons_of_mem _ hs')]
    rfl

/-- Without a failing call the loop comes to its end. -/
theorem fillCerts_total (hdraws : ∀ k, draws k ≠ none) (server : List ServerConfig) (k : Nat) :
    ∃ result, fillCerts draws k server = some result := by
  induction server generalizing k with
  | nil => exact ⟨_, rfl⟩
  | cons s rest ih =>
    rw [fillCerts]
    split
    · obtain ⟨result, hrest⟩ := ih k
      rw [hrest]
      exact ⟨_, rfl⟩
    · obtain ⟨d, hd⟩ := Option.ne_none_iff_exists'.mp (hdraws k)
      obtain ⟨result, hrest⟩ := ih (k + 1)
      rw [hd, hrest]
      exact ⟨_, rfl⟩

end Loop

/-! ## The function -/

/-- What is expected of a run that returns. -/
structure Preserved (draws : Nat → Option Identity) (config config' : Config)
    (saved : Option Json) : Prop where
  /-- every field of a server entry that was not empty is unchanged -/
  servers : List.Forall₂ serverRecord.Keeps config.server config'.server
  clients : config'.client = config.client
  /-- every obfs4 entry has a certificate -/
  certs : ∀ s ∈ config'.server, s.type = obfs4 → s.cert ≠ []
  /-- a certificate and its private key are from one call -/
  generated : List.Forall₂ (fun s s' => NeedsCert s →
    ∃ k d, draws k = some d ∧ s'.cert = d.cert ∧ s'.privateKey = d.privateKey)
      config.server config'.server
  /-- what is saved is the configuration that is left -/
  file : ∀ tree, saved = some tree → load tree = some config'
  unsaved : saved = none → config' = config
  /-- another run changes nothing and saves nothing -/
  again : ∀ draws' write, ensureServerCerts draws' write config' = .returned config' none

section Ensure

variable {draws : Nat → Option Identity} {config config' : Config} {saved : Option Json}
  {write : Bool}

/-- A run that returns has filled the entries, and saved them if there were some to fill. -/
theorem ensureServerCerts_returned
    (h : ensureServerCerts draws write config = .returned config' saved) :
    List.Forall₂ (Filled draws) config.server config'.server ∧ config'.client = config.client ∧
      (saved = none ∧ (∀ s ∈ config.server, ¬ NeedsCert s) ∨ saved = some (save config')) := by
  unfold ensureServerCerts at h
  split at h
  · cases h
  · rename_i server dirty hfill
    obtain ⟨hfilled, hdirty⟩ := fillCerts_filled hfill
    dsimp only at h
    split at h
    · split at h
      · cases h
        exact ⟨hfilled, rfl, .inr rfl⟩
      · cases h
    · rename_i hclean
      cases h
      refine ⟨hfilled, rfl, .inl ⟨rfl, fun s hs hneeds => hclean ?_⟩⟩
      exact hdirty.mpr ⟨s, hs, hneeds⟩

theorem ensureServerCerts_settled (h : ∀ s ∈ config.server, ¬ NeedsCert s) :
    ensureServerCerts draws write config = .returned config none := by
  rw [ensureServerCerts, fillCerts_settled 0 h]
  rfl

/-- Entries that need nothing stay as they are. -/
theorem filled_eq {server server' : List ServerConfig}
    (h : List.Forall₂ (Filled draws) server server') (hno : ∀ s ∈ server, ¬ NeedsCert s) :
    server' = server := by
  induction h with
  | nil => rfl
  | cons hs hrest ih =>
    rw [Filled, if_neg (hno _ List.mem_cons_self)] at hs
    rw [hs, ih fun s hs => hno s (List.mem_cons_of_mem _ hs)]

/-- No entry that was filled needs a certificate. -/
theorem filled_settled {server server' : List ServerConfig}
    (h : List.Forall₂ (Filled draws) server server') : ∀ s ∈ server', ¬ NeedsCert s := by
  induction h with
  | nil => simp
  | cons hs hrest ih => exact List.forall_mem_cons.mpr ⟨hs.settled, ih⟩

/-- A run that returns, without a private key to lose. -/
theorem preserved_of_returned
    (hkeys : ∀ s ∈ config.server, s.type = obfs4 → s.cert = [] → s.privateKey = [])
    (h : ensureServerCerts draws write config = .returned config' saved) :
    Preserved draws config config' saved := by
  obtain ⟨hfilled, hclient, hsaved⟩ := ensureServerCerts_returned h
  have hsettled := filled_settled hfilled
  refine ⟨?_, hclient, ?_, ?_, ?_, ?_, fun draws' write' => ensureServerCerts_settled hsettled⟩
  · refine ((List.forall₂_and_left _ _).mpr ⟨hkeys, hfilled⟩).imp fun s s' ⟨hkey, hs⟩ => ?_
    unfold Filled at hs
    split at hs
    · rename_i hneeds
      obtain ⟨k, d, -, rfl⟩ := hs
      exact keeps_withIdentity d hneeds.2 (hkey hneeds.1 hneeds.2)
    · rw [hs]
      exact .refl _ s
  · intro s hs htype hnil
    exact hsettled s hs ⟨htype, hnil⟩
  · refine hfilled.imp fun s s' hs hneeds => ?_
    rw [Filled, if_pos hneeds] at hs
    obtain ⟨k, d, hd, rfl⟩ := hs
    exact ⟨k, d, hd, rfl, rfl⟩
  · intro tree htree
    rcases hsaved with ⟨hnone, -⟩ | hsome
    · rw [hnone] at htree
      cases htree
    · rw [hsome] at htree
      cases htree
      exact load_save config'
  · intro hnone
    rcases hsaved with ⟨-, hno⟩ | hsome
    · have hserver := filled_eq hfilled hno
      exact congrArg₂ Config.mk hserver hclient
    · rw [hnone] at hsome
      cases hsome

theorem ensureServerCerts_total (config : Config) (hdraws : ∀ k, draws k ≠ none) :
    ∃ config' saved, ensureServerCerts draws true config = .returned config' saved := by
  obtain ⟨⟨server, dirty⟩, hfill⟩ := fillCerts_total hdraws config.server 0
  unfold ensureServerCerts
  rw [hfill]
  cases dirty with
  | false => exact ⟨_, _, rfl⟩
  | true => exact ⟨_, _, rfl⟩

end Ensure

/-- An identity whose bytes are all `b`. -/
def Identity.constant (b : UInt8) : Identity where
  nodeID := ⟨List.replicate 20 b, List.length_replicate⟩
  pub := ⟨List.replicate 32 b, List.length_replicate⟩
  priv := ⟨List.replicate 32 b, List.length_replicate⟩

/-- For every text there is an identity with another private key. -/
theorem exists_other_key (key : Bytes) : ∃ d : Identity, d.privateKey ≠ key := by
  by_cases h : (Identity.constant 0).privateKey = key
  · refine ⟨.constant 1, ?_⟩
    rw [← h]
    decide
  · exact ⟨_, h⟩

/-- `ensureServerCerts` comes to its end if every identity can be generated and the file can be
written. For a given configuration, every run that returns leaves what was configured, exactly if
no obfs4 entry has a private key without a certificate. -/
theorem ensureServerCerts_preserves_iff (config : Config) :
    (∀ draws : Nat → Option Identity, (∀ k, draws k ≠ none) →
      ∃ config' saved, ensureServerCerts draws true config = .returned config' saved) ∧
    ((∀ draws write config' saved,
        ensureServerCerts draws write config = .returned config' saved →
          Preserved draws config config' saved) ↔
      ∀ s ∈ config.server, s.type = obfs4 → s.cert = [] → s.privateKey = []) := by
  refine ⟨fun draws hdraws => ensureServerCerts_total config hdraws, ?_, ?_⟩
  · intro hall s hs htype hcert
    by_contra hkey
    -- calls that draw another key
    obtain ⟨d, hother⟩ := exists_other_key s.privateKey
    have hdraws : ∀ k : Nat, (fun _ => some d) k ≠ none := by simp
    obtain ⟨config', saved, hrun⟩ := ensureServerCerts_total config hdraws
    have hpreserved := hall _ _ _ _ hrun
    obtain ⟨i, hi, rfl⟩ := List.mem_iff_getElem.mp hs
    have hi' : i < config'.server.length := hpreserved.servers.length_eq ▸ hi
    have hkept := hpreserved.servers.get hi hi'
    obtain ⟨k, d', hd, -, hnew⟩ := hpreserved.generated.get hi hi' ⟨htype, hcert⟩
    cases hd
    exact hother (hnew.symm.trans (privateKey_of_keeps hkept hkey))
  · intro hkeys draws write config' saved h
    exact preserved_of_returned hkeys h

/-- An obfs4 server entry with a private key and no certificate. -/
def keyOnly : ServerConfig :=
  { ServerConfig.ofValues [] with type := obfs4, privateKey := [107, 101, 121] }

/-- The private key is replaced, in the configuration and in the file. -/
theorem ensureServerCerts_replaces_key :
    ∃ config' tree, ensureServerCerts (fun _ => some (.constant 0)) true ⟨[keyOnly], []⟩ =
        .returned config' (some tree) ∧ load tree = some config' ∧
      keyOnly.privateKey ≠ [] ∧
      config'.server.map ServerConfig.privateKey = [(Identity.constant 0).privateKey] ∧
      (Identity.constant 0).privateKey ≠ keyOnly.privateKey := by
  exact ⟨_, _, rfl, load_save _, by decide, rfl, by decide⟩

end PTBridge.Obfs
