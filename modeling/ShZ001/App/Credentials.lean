/-
The credentials of the access point in non-volatile storage
(wifi_ap_task.c 14–16, 22–25, 48–117).

# Three entries

Name, password and hidden flag are three entries of one namespace. The
reader takes them as one: it succeeds with all three or not at all, and
the access point comes up with what it has read or with the three
defaults. The writer stores them one after the other, and where one
cannot be stored it returns with those before it changed.

# The storage

It is not part of the repository. What its calls report is given; a
write that reports `ESP_OK` is seen by later reads, one that does not
leaves its entry as it was. The source calls no `nvs_commit`, so the
entries are followed within one power cycle.

# The laws

`storedLaw_iff` says when a failing write does no harm: when the writes
before it wrote what was there. The writer is an instance of
`Lib/Writes.lean`, and the proof is that of `putAll_eq_self`.
`startAll_origin` follows any number of starts: each value is the stored
one or the default, though not always all three from the same source.
-/
import ShZ001.Lib.Bytes
import ShZ001.Lib.Writes

namespace ShZ001.App

open Lib

-- ============================================================== the storage

/-- `esp_err_t`. -/
abbrev EspErr := Int

def espOk : EspErr := 0

def espErrNotFound : EspErr := 0x105

/-- The keys of the namespace `sh_wifi_ap`. -/
inductive ApKey
  | ssid
  | pswd
  | ssidHid
  deriving DecidableEq, Repr

/-- The types they are read and written with. -/
abbrev ApKey.Value : ApKey → Type
  | .ssid => List UInt8
  | .pswd => List UInt8
  | .ssidHid => UInt8

/-- What the namespace holds. -/
abbrev Entries : Type := Contents ApKey.Value

/-- `nvs_set_str`, `nvs_set_u8`; `err` is what the call reports. -/
def nvsSet (k : ApKey) (value : k.Value) (err : EspErr) (ns : Entries) :
    Entries :=
  if err = espOk then Function.update ns k (some value) else ns

/-- `nvs_get_u8`, and `nvs_get_str` but for its buffer; `none` is an
error. -/
def nvsGet (k : ApKey) (err : EspErr) (ns : Entries) : Option k.Value :=
  if err = espOk then ns k else none

/-- `nvs_get_str` with a buffer of `len` bytes: the string has to fit with
its terminator. -/
def nvsGetStr (got : Option (List UInt8)) (len : Nat) :
    Option (List UInt8) :=
  got.filter fun str => str.length + 1 ≤ len

-- ============================================================ the functions

/-- What is stored of `wifi_config.ap`. -/
structure ApConfig where
  ssid : List UInt8
  password : List UInt8
  ssidHidden : UInt8
  deriving DecidableEq, Repr

/-- Lines 14–16. -/
def ApConfig.default : ApConfig where
  ssid := bytes "SH-Z-001"
  password := bytes "66668888"
  ssidHidden := 0

/-- What the calls of one function report. -/
structure NvsCalls where
  opened : EspErr
  ssid : EspErr
  pswd : EspErr
  ssidHid : EspErr

/-- `set_ssid_to_nvs`: what it returns, and the namespace. -/
def setSsidToNvs (new : ApConfig) (calls : NvsCalls) (ns : Entries) :
    EspErr × Entries :=
  if calls.opened ≠ espOk then (calls.opened, ns)
  else
    let ns := nvsSet .ssid new.ssid calls.ssid ns
    if calls.ssid ≠ espOk then (espErrNotFound, ns)
    else
      let ns := nvsSet .pswd new.password calls.pswd ns
      if calls.pswd ≠ espOk then (espErrNotFound, ns)
      else
        let ns := nvsSet .ssidHid new.ssidHidden calls.ssidHid ns
        if calls.ssidHid ≠ espOk then (espErrNotFound, ns) else (espOk, ns)

/-- `get_ssid_from_nvs`: what it returns, and the buffers, which were
`out`. -/
def getSsidFromNvs (ssidLen passwordLen : Nat) (calls : NvsCalls)
    (ns : Entries) (out : ApConfig) : EspErr × ApConfig :=
  if calls.opened ≠ espOk then (calls.opened, out)
  else
    match nvsGetStr (nvsGet .ssid calls.ssid ns) ssidLen with
    | none => (espErrNotFound, out)
    | some ssid =>
        let out := { out with ssid := ssid }
        match nvsGetStr (nvsGet .pswd calls.pswd ns) passwordLen with
        | none => (espErrNotFound, out)
        | some password =>
            let out := { out with password := password }
            match nvsGet .ssidHid calls.ssidHid ns with
            | none => (espErrNotFound, out)
            | some ssidHidden => (espOk, { out with ssidHidden := ssidHidden })

/-- `start_wifi_ap`, lines 110–117: what the access point is started with,
and the namespace. -/
def startWifiAp (get set : NvsCalls) (config : ApConfig) (ns : Entries) :
    ApConfig × Entries :=
  let (err, config) := getSsidFromNvs 32 64 get ns config
  if err ≠ espOk then
    (ApConfig.default, (setSsidToNvs ApConfig.default set ns).2)
  else (config, ns)

-- ================================================================== the law

/-- A namespace that holds a complete triple. -/
def ApConfig.entries (t : ApConfig) : Entries
  | .ssid => some t.ssid
  | .pswd => some t.password
  | .ssidHid => some t.ssidHidden

/-- What some call of `get_ssid_from_nvs` succeeds with. -/
def Readable (ns : Entries) (t : ApConfig) : Prop :=
  ∃ ssidLen passwordLen calls out,
    getSsidFromNvs ssidLen passwordLen calls ns out = (espOk, t)

/-- The stored credentials change all together or not at all. -/
structure StoredLaw (prior new : ApConfig) (calls : NvsCalls) : Prop where
  failed : (setSsidToNvs new calls prior.entries).1 ≠ espOk →
    ∀ t, Readable (setSsidToNvs new calls prior.entries).2 t → t = prior
  stored : (setSsidToNvs new calls prior.entries).1 = espOk →
    ∀ t, Readable (setSsidToNvs new calls prior.entries).2 t → t = new
  unmixed : ∀ t, Readable (setSsidToNvs new calls prior.entries).2 t →
    t = prior ∨ t = new

/-- Whatever is stored before a write that fails was there already. -/
structure Untorn (prior new : ApConfig) (calls : NvsCalls) : Prop where
  pswd : calls.opened = espOk → calls.ssid = espOk → calls.pswd ≠ espOk →
    new.ssid = prior.ssid
  ssidHid : calls.opened = espOk → calls.ssid = espOk →
    calls.pswd = espOk → calls.ssidHid ≠ espOk →
    new.ssid = prior.ssid ∧ new.password = prior.password

-- =============================================================== the reader

/-- What is read into a buffer is what was stored. -/
theorem nvsGetStr_eq_some {got : Option (List UInt8)} {len : Nat}
    {str : List UInt8} (h : nvsGetStr got len = some str) :
    got = some str :=
  (Option.filter_eq_some_iff.mp h).1

/-- And so is what is read without one. -/
theorem nvsGet_eq_some {k : ApKey} {err : EspErr} {ns : Entries}
    {value : k.Value} (h : nvsGet k err ns = some value) :
    ns k = some value := by
  unfold nvsGet at h
  split at h
  · exact h
  · cases h

/-- The entries of a triple determine it. -/
theorem entries_injective {s t : ApConfig} (h : s.entries = t.entries) :
    s = t := by
  have hssid : some s.ssid = some t.ssid := congrFun h .ssid
  have hpswd : some s.password = some t.password := congrFun h .pswd
  have hhid : some s.ssidHidden = some t.ssidHidden := congrFun h .ssidHid
  obtain ⟨ssid, password, hidden⟩ := s
  obtain ⟨ssid', password', hidden'⟩ := t
  cases hssid
  cases hpswd
  cases hhid
  rfl

/-- A successful read is of all three entries. -/
theorem getSsidFromNvs_ok {ssidLen passwordLen : Nat} {calls : NvsCalls}
    {ns : Entries} {out t : ApConfig}
    (h : getSsidFromNvs ssidLen passwordLen calls ns out = (espOk, t)) :
    ns = t.entries := by
  unfold getSsidFromNvs at h
  split at h
  case isTrue hopen => exact absurd (congrArg Prod.fst h) hopen
  split at h
  case h_1 => cases h
  rename_i ssid hssid
  dsimp only at h
  split at h
  case h_1 => cases h
  rename_i password hpassword
  split at h
  case h_1 => cases h
  rename_i hidden hhidden
  cases h
  funext k
  cases k with
  | ssid => exact nvsGet_eq_some (nvsGetStr_eq_some hssid)
  | pswd => exact nvsGet_eq_some (nvsGetStr_eq_some hpassword)
  | ssidHid => exact nvsGet_eq_some hhidden

/-- A namespace is read as a triple exactly if it holds that triple and
nothing is missing. -/
theorem readable_iff {ns : Entries} {t : ApConfig} :
    Readable ns t ↔ ns = t.entries := by
  constructor
  · intro h
    obtain ⟨_, _, _, _, hget⟩ := h
    exact getSsidFromNvs_ok hget
  · intro h
    subst h
    refine ⟨t.ssid.length + 1, t.password.length + 1,
      ⟨espOk, espOk, espOk, espOk⟩, t, ?_⟩
    simp [getSsidFromNvs, nvsGet, nvsGetStr, ApConfig.entries, Option.filter]

-- =============================================================== the writer

/-- The writes of `set_ssid_to_nvs`. -/
def puts (new : ApConfig) (calls : NvsCalls) : List (Put ApKey.Value) :=
  [⟨.ssid, new.ssid, calls.ssid = espOk⟩,
    ⟨.pswd, new.password, calls.pswd = espOk⟩,
    ⟨.ssidHid, new.ssidHidden, calls.ssidHid = espOk⟩]

/-- The three keys are different. -/
theorem puts_nodup (new : ApConfig) (calls : NvsCalls) :
    ((puts new calls).map Put.key).Nodup := by
  simp [puts]

/-- A write of the code is a write of the library that succeeds if the call
reports `ESP_OK`. -/
theorem put_into (k : ApKey) (value : k.Value) (err : EspErr)
    (ns : Entries) :
    (Put.mk k value (decide (err = espOk))).into ns = nvsSet k value err ns := by
  unfold Put.into nvsSet
  simp only [decide_eq_true_eq]

/-- They are made until one fails. -/
theorem setSsidToNvs_eq (new : ApConfig) {calls : NvsCalls}
    (hopen : calls.opened = espOk) (ns : Entries) :
    setSsidToNvs new calls ns
      = (if (putAll ns (puts new calls)).1 then espOk else espErrNotFound,
        (putAll ns (puts new calls)).2) := by
  unfold setSsidToNvs puts
  rw [if_neg (not_not.mpr hopen)]
  simp only [putAll, put_into, decide_eq_true_eq]
  split_ifs <;> simp_all

/-- The result tells whether all of them were made. -/
theorem setSsidToNvs_ok (new : ApConfig) {calls : NvsCalls}
    (hopen : calls.opened = espOk) (ns : Entries) :
    (setSsidToNvs new calls ns).1 = espOk ↔
      (putAll ns (puts new calls)).1 = true := by
  rw [setSsidToNvs_eq new hopen]
  dsimp only
  split
  case isTrue h => exact iff_of_true rfl h
  case isFalse h => exact iff_of_false (by decide) h

/-- A complete triple stays complete. -/
theorem setSsidToNvs_complete (prior new : ApConfig) (calls : NvsCalls) :
    ∃ t : ApConfig,
      (setSsidToNvs new calls prior.entries).2 = t.entries := by
  by_cases hopen : calls.opened = espOk
  · have hsome : ∀ k, ((putAll prior.entries (puts new calls)).2 k).isSome := by
      intro k
      have hk : (prior.entries k).isSome = true := by cases k <;> rfl
      exact putAll_isSome hk _
    obtain ⟨ssid, hssid⟩ := Option.isSome_iff_exists.mp (hsome .ssid)
    obtain ⟨password, hpswd⟩ := Option.isSome_iff_exists.mp (hsome .pswd)
    obtain ⟨hidden, hhid⟩ := Option.isSome_iff_exists.mp (hsome .ssidHid)
    refine ⟨⟨ssid, password, hidden⟩, ?_⟩
    rw [setSsidToNvs_eq new hopen]
    funext k
    cases k with
    | ssid => exact hssid
    | pswd => exact hpswd
    | ssidHid => exact hhid
  · refine ⟨prior, ?_⟩
    unfold setSsidToNvs
    rw [if_pos hopen]

/-- Success is told of a new triple. -/
theorem setSsidToNvs_stored {new : ApConfig} {calls : NvsCalls}
    {ns : Entries} (h : (setSsidToNvs new calls ns).1 = espOk) :
    (setSsidToNvs new calls ns).2 = new.entries := by
  by_cases hopen : calls.opened = espOk
  · have hall := (setSsidToNvs_ok new hopen ns).mp h
    have hput := fun p => putAll_stored (puts_nodup new calls) ns hall (p := p)
    rw [setSsidToNvs_eq new hopen]
    funext k
    cases k with
    | ssid => exact hput ⟨.ssid, new.ssid, _⟩ (.head _)
    | pswd => exact hput ⟨.pswd, new.password, _⟩ (.tail _ (.head _))
    | ssidHid =>
        exact hput ⟨.ssidHid, new.ssidHidden, _⟩ (.tail _ (.tail _ (.head _)))
  · unfold setSsidToNvs at h
    rw [if_pos hopen] at h
    exact absurd h hopen

/-- An error leaves the namespace as it was exactly if the writes before
the failing one do. -/
theorem setSsidToNvs_kept (prior new : ApConfig) (calls : NvsCalls) :
    ((setSsidToNvs new calls prior.entries).1 ≠ espOk →
      (setSsidToNvs new calls prior.entries).2 = prior.entries) ↔
      Untorn prior new calls := by
  by_cases hopen : calls.opened = espOk
  case neg =>
      unfold setSsidToNvs
      rw [if_pos hopen]
      refine iff_of_true (fun _ => rfl) ⟨?_, ?_⟩
      · exact fun h => absurd h hopen
      · exact fun h => absurd h hopen
  rw [Ne, setSsidToNvs_ok new hopen, setSsidToNvs_eq new hopen,
    putAll_eq_self (puts_nodup new calls), putAll_all]
  constructor
  · intro h
    refine ⟨fun _ hssid hpswd => ?_, fun _ hssid hpswd hhid => ?_⟩
    · have hkept := h (by simp [puts, hpswd]) ⟨.ssid, new.ssid, true⟩
        (by simp [made, puts, hssid])
      exact (Option.some.inj hkept).symm
    · have hkept := h (by simp [puts, hhid])
      have hname := hkept ⟨.ssid, new.ssid, true⟩
        (by simp [made, puts, hssid])
      have hpassword := hkept ⟨.pswd, new.password, true⟩
        (by simp [made, puts, hssid, hpswd])
      exact ⟨(Option.some.inj hname).symm,
        (Option.some.inj hpassword).symm⟩
  · intro h hfail p hp
    by_cases hssid : calls.ssid = espOk
    case neg =>
        have hmade : made (puts new calls) = [] := by
          simp [made, puts, hssid]
        rw [hmade] at hp
        cases hp
    by_cases hpswd : calls.pswd = espOk
    case neg =>
        have hmade : made (puts new calls)
            = [⟨.ssid, new.ssid, true⟩] := by
          simp [made, puts, hssid, hpswd]
        rw [hmade] at hp
        rw [List.eq_of_mem_singleton hp]
        exact congrArg some (h.pswd hopen hssid hpswd).symm
    case pos =>
        have hhid : calls.ssidHid ≠ espOk := by
          intro hhid
          simp [puts, hssid, hpswd, hhid] at hfail
        have hmade : made (puts new calls)
            = [⟨.ssid, new.ssid, true⟩, ⟨.pswd, new.password, true⟩] := by
          simp [made, puts, hssid, hpswd, hhid]
        obtain ⟨hname, hpassword⟩ := h.ssidHid hopen hssid hpswd hhid
        rw [hmade, List.mem_pair] at hp
        rcases hp with heq | heq
        · rw [heq]
          exact congrArg some hname.symm
        · rw [heq]
          exact congrArg some hpassword.symm

-- ================================================================== the law

/-- The stored credentials change all together or not at all exactly if a
write that fails comes after such only that wrote what was there.

The three writes are of three different keys, so none undoes what another
one did. A set of entries that is a triple before and not one afterwards is
therefore the work of a write that succeeded before the one that failed. -/
theorem storedLaw_iff (prior new : ApConfig) (calls : NvsCalls) :
    StoredLaw prior new calls ↔ Untorn prior new calls := by
  rw [← setSsidToNvs_kept]
  constructor
  · intro h hfail
    obtain ⟨t, ht⟩ := setSsidToNvs_complete prior new calls
    rw [ht, h.failed hfail t (readable_iff.mpr ht)]
  · intro h
    have hfailed : (setSsidToNvs new calls prior.entries).1 ≠ espOk → ∀ t,
        Readable (setSsidToNvs new calls prior.entries).2 t → t = prior := by
      intro hfail t ht
      rw [h hfail] at ht
      exact (entries_injective (readable_iff.mp ht)).symm
    have hstored : (setSsidToNvs new calls prior.entries).1 = espOk → ∀ t,
        Readable (setSsidToNvs new calls prior.entries).2 t → t = new := by
      intro hok t ht
      rw [setSsidToNvs_stored hok] at ht
      exact (entries_injective (readable_iff.mp ht)).symm
    refine ⟨hfailed, hstored, fun t ht => ?_⟩
    by_cases hok : (setSsidToNvs new calls prior.entries).1 = espOk
    · exact .inr (hstored hok t ht)
    · exact .inl (hfailed hok t ht)

/-- The flash is full when the password is to be written. -/
def flashFull : NvsCalls where
  opened := espOk
  ssid := espOk
  pswd := 0x1105
  ssidHid := espOk

def home : ApConfig where
  ssid := bytes "home"
  password := bytes "secret12"
  ssidHidden := 0

/-- The new name is read with the old password. -/
theorem stored_fails : ¬ StoredLaw home ApConfig.default flashFull := by
  intro h
  have hmixed := h.unmixed { home with ssid := bytes "SH-Z-001" }
    ⟨32, 64, ⟨espOk, espOk, espOk, espOk⟩, home, by decide +kernel⟩
  exact absurd hmixed (by decide +kernel)

-- =================================================================== the task

/-- Each entry is what it was in `ns₀`, or its default. -/
def Origin (ns₀ ns : Entries) : Prop :=
  ∀ k, ns k = ns₀ k ∨ ns k = ApConfig.default.entries k

section

variable {ns₀ ns : Entries} (h : Origin ns₀ ns)

include h

/-- Storing a default keeps each entry at what it was or at its default. -/
theorem origin_nvsSet {k : ApKey} {value : k.Value}
    (hvalue : ApConfig.default.entries k = some value) (err : EspErr) :
    Origin ns₀ (nvsSet k value err ns) := by
  intro j
  unfold nvsSet
  split
  case isFalse => exact h j
  case isTrue =>
      by_cases hj : j = k
      · subst hj
        rw [Function.update_self, hvalue]
        exact .inr rfl
      · rw [Function.update_of_ne hj]
        exact h j

/-- The task stores its defaults only, so this holds of its writer, -/
theorem origin_setSsidToNvs (calls : NvsCalls) :
    Origin ns₀ (setSsidToNvs ApConfig.default calls ns).2 := by
  have hssid := origin_nvsSet (k := .ssid) h rfl calls.ssid
  have hpswd := origin_nvsSet (k := .pswd) hssid rfl calls.pswd
  have hhid := origin_nvsSet (k := .ssidHid) hpswd rfl calls.ssidHid
  unfold setSsidToNvs
  split_ifs
  · exact h
  · exact hssid
  · exact hpswd
  · exact hhid
  · exact hhid

/-- One start. -/
theorem origin_startWifiAp (get set : NvsCalls) (config : ApConfig) :
    Origin ns₀ (startWifiAp get set config ns).1.entries ∧
      Origin ns₀ (startWifiAp get set config ns).2 := by
  unfold startWifiAp
  cases hget : getSsidFromNvs 32 64 get ns config with
  | mk err read =>
      dsimp only
      split
      case isTrue => exact ⟨fun k => .inr rfl, origin_setSsidToNvs h set⟩
      case isFalse hok =>
          rw [not_not.mp hok] at hget
          exact ⟨getSsidFromNvs_ok hget ▸ h, h⟩

end

/-- One start after the other, with what their calls report. -/
def startAll (calls : List (NvsCalls × NvsCalls)) (config : ApConfig)
    (ns : Entries) : ApConfig × Entries :=
  calls.foldl (fun s c => startWifiAp c.1 c.2 s.1 s.2) (config, ns)

/-- and of any number of starts. -/
theorem origin_startAll {ns₀ ns : Entries} (h : Origin ns₀ ns)
    (config : ApConfig) {calls : List (NvsCalls × NvsCalls)}
    (hne : calls ≠ []) :
    Origin ns₀ (startAll calls config ns).1.entries ∧
      Origin ns₀ (startAll calls config ns).2 := by
  induction calls generalizing config ns with
  | nil => exact absurd rfl hne
  | cons c calls ih =>
      have hstart := origin_startWifiAp h c.1 c.2 config
      rcases calls with _ | ⟨c', calls⟩
      · exact hstart
      · exact ih hstart.2 _ (List.cons_ne_nil _ _)

/-- A triple that fits the buffers of the access point. -/
structure ApConfig.Fits (t : ApConfig) : Prop where
  ssid : t.ssid.length < 32
  password : t.password.length < 64

/-- No call reports an error. -/
structure NvsCalls.Fine (calls : NvsCalls) : Prop where
  opened : calls.opened = espOk
  ssid : calls.ssid = espOk
  pswd : calls.pswd = espOk
  ssidHid : calls.ssidHid = espOk

/-- A string that fits its buffer is read as it is. -/
theorem nvsGetStr_fits {str : List UInt8} {len : Nat}
    (h : str.length < len) : nvsGetStr (some str) len = some str := by
  unfold nvsGetStr
  rw [Option.filter_some]
  exact if_pos (decide_eq_true (Nat.succ_le_of_lt h))

/-- A start whose reads work takes the triple, and stores nothing. -/
theorem startWifiAp_stored {t : ApConfig} (ht : t.Fits) {get : NvsCalls}
    (hget : get.Fine) (set : NvsCalls) (config : ApConfig) :
    startWifiAp get set config t.entries = (t, t.entries) := by
  obtain ⟨hopened, hssid, hpswd, hhid⟩ := hget
  have hfound : getSsidFromNvs 32 64 get t.entries config = (espOk, t) := by
    unfold getSsidFromNvs
    simp [hopened, hssid, hpswd, hhid, nvsGet, ApConfig.entries,
      nvsGetStr_fits ht.ssid, nvsGetStr_fits ht.password]
  unfold startWifiAp
  rw [hfound]
  rfl

/-- Whatever the calls report, each of the three values of a start was
stored at the beginning, or is the default; and a stored triple is taken by
all starts up to the first whose reads fail. -/
theorem startAll_origin (ns : Entries) (config : ApConfig)
    {calls : List (NvsCalls × NvsCalls)} (hne : calls ≠ []) :
    Origin ns (startAll calls config ns).1.entries ∧
      Origin ns (startAll calls config ns).2 ∧
      ∀ t : ApConfig, t.Fits → ns = t.entries → (∀ c ∈ calls, c.1.Fine) →
        startAll calls config ns = (t, ns) := by
  obtain ⟨hconfig, hns⟩ := origin_startAll (fun _ => .inl rfl) config hne
  refine ⟨hconfig, hns, fun t ht hstored hfine => ?_⟩
  subst hstored
  clear hconfig hns
  induction calls generalizing config with
  | nil => exact absurd rfl hne
  | cons c calls ih =>
      have hstart := startWifiAp_stored ht (hfine c List.mem_cons_self) c.2
        config
      rcases calls with _ | ⟨c', calls⟩
      · exact hstart
      · unfold startAll at ih ⊢
        rw [List.foldl_cons, hstart]
        exact ih t (List.cons_ne_nil _ _)
          fun d hd => hfine d (List.mem_cons_of_mem _ hd)

/-- The first start cannot read, and can store the name only. -/
theorem startAll_origin_mixed :
    (startAll [(⟨0x1102, espOk, espOk, espOk⟩, flashFull),
        (⟨espOk, espOk, espOk, espOk⟩, flashFull)] home home.entries).1
        = { home with ssid := bytes "SH-Z-001" } ∧
      Origin home.entries (startAll [(⟨0x1102, espOk, espOk, espOk⟩,
        flashFull), (⟨espOk, espOk, espOk, espOk⟩, flashFull)] home
        home.entries).1.entries :=
  ⟨by decide +kernel,
    (startAll_origin home.entries home (List.cons_ne_nil _ _)).1⟩

/-- No entry holds anything but its default. -/
def Factory (ns : Entries) : Prop :=
  ∀ k, ns k = none ∨ ns k = ApConfig.default.entries k

/-- The task itself stores nothing but the defaults. So if nobody else has,
no failing write is ever noticed: every start of the access point is with
the defaults. -/
theorem startAll_default {ns : Entries} (h : Factory ns) (config : ApConfig)
    {calls : List (NvsCalls × NvsCalls)} (hne : calls ≠ []) :
    (startAll calls config ns).1 = ApConfig.default := by
  obtain ⟨hconfig, -⟩ :=
    origin_startAll (show Origin (fun _ => none) ns from h) config hne
  refine entries_injective (funext fun k => ?_)
  rcases hconfig k with hnone | hdefault
  · cases k <;> cases hnone
  · exact hdefault

end ShZ001.App
