import BraveRotator.Config.Caps
import BraveRotator.Lib.Checks

namespace BraveRotator

open Checks

def Uri.isComplete (uri : Uri) : Bool := uri.scheme.isSome && uri.authority.isSome

namespace Config

section Settings

variable (env : Env) (name default : String)

/-- What is read for the variable. -/
def setting : List Char := Text.trim (envOr env name default).toList

/-- It is a number that fits. -/
def SaysNumber (max n : Nat) : Prop := n ≤ max ∧ Text.IsNumber n (setting env name default)

def yesWords : List String := ["1", "true", "yes", "on"]

def noWords : List String := ["0", "false", "no", "off"]

def settingWord : String := String.ofList ((setting env name default).map Char.toLower)

def baseText : List Char :=
  (envOr env "BRAVE_BASE_URL" "https://api.search.brave.com").toList.rdropWhile (· = '/')

end Settings

section Checks

variable (host : EnvHost) (env : Env)

def fits (max : Nat) (name default : String) : String × Bool :=
  (name, (fromStr max (setting env name default)).toBool)

/-- What is checked, in order. -/
def checks : List (String × Bool) :=
  [("BRAVE_API_KEYS", !(keyEntries env).isEmpty),
    ("LISTEN_ADDR", (host.parseSocketAddr (setting env "LISTEN_ADDR" "0.0.0.0:8080")).toBool),
    ("BRAVE_BASE_URL", (host.parseUri (baseText env)).toBool),
    ("BRAVE_BASE_URL", (host.parseUri (baseText env)).toOption.all Uri.isComplete),
    fits env u64Max "UPSTREAM_TIMEOUT_MS" "15000",
    fits env u64Max "MAX_QUEUE_WAIT_MS" "5000",
    fits env u64Max "REPORT_INTERVAL_SECS" "60",
    fits env u64Max "WINDOW_MARGIN_MS" "100",
    fits env u32Max "DEFAULT_RPS_PER_KEY" "1",
    fits env u64Max "MAX_BODY_BYTES" "4194304",
    fits env u64Max "WORKER_THREADS" "2",
    ("ACCESS_LOG", (yesWords ++ noWords).contains (settingWord env "ACCESS_LOG" "true"))]

theorem step_parseEnv {α : Type} (parse : List Char → Except String α) (name default : String) :
    Step name (parse (setting env name default)).toBool (parseEnv host env parse name default) := by
  apply step_mapError
  intro e
  simp only [String.toList_append, List.append_assoc]
  exact List.prefix_append ..

theorem step_fits (max : Nat) (name default : String) :
    Step name (fits env max name default).2 (parseEnv host env (fromStr max) name default) :=
  step_parseEnv host env (fromStr max) name default

theorem parseBool_eq (name : String) :
    parseBool host env name true =
      let raw := envOr env name "true"
      if yesWords.contains (settingWord env name "true") = true then .ok true
      else if noWords.contains (settingWord env name "true") = true then .ok false
      else .error s!"{name}={host.debug raw} is invalid: expected true or false" := rfl

theorem step_parseBool :
    Step "ACCESS_LOG" ((yesWords ++ noWords).contains (settingWord env "ACCESS_LOG" "true"))
      (parseBool host env "ACCESS_LOG" true) := by
  rw [parseBool_eq, List.contains_append]
  dsimp only
  cases yesWords.contains (settingWord env "ACCESS_LOG" "true") with
  | true => exact ⟨rfl, nofun⟩
  | false =>
    cases noWords.contains (settingWord env "ACCESS_LOG" "true") with
    | true => exact ⟨rfl, nofun⟩
    | false =>
      refine ⟨rfl, ?_⟩
      intro e same
      cases same
      simp only [String.toList_append, List.append_assoc]
      exact List.prefix_append ..

theorem fromEnv_keys :
    ((splitKeys ((firstEnv env ["BRAVE_API_KEYS", "BRAVE_KEYS"]).getD "").toList).foldl
      addKey ([], 0)).1 = (keyEntries env).eraseDups :=
  addKey_foldl (splitKeys ((firstEnv env ["BRAVE_API_KEYS", "BRAVE_KEYS"]).getD "").toList) [] 0

theorem ok_of_mapError {ε ε' α : Type} {x : Except ε α} {f : ε → ε'} {a : α}
    (ok : x.mapError f = .ok a) : x = .ok a := by
  cases x with
  | error e => cases ok
  | ok b =>
    cases ok
    rfl

theorem fromEnv_blames : Blames (checks host env) (fromEnv host env) := by
  have entries : (keyEntries env).isEmpty =
      ((splitKeys ((firstEnv env ["BRAVE_API_KEYS", "BRAVE_KEYS"]).getD "").toList).foldl
        addKey ([], 0)).1.isEmpty := by
    rw [fromEnv_keys]
    cases keyEntries env with
    | nil => rfl
    | cons key keys => rw [List.eraseDups_cons, List.isEmpty_cons, List.isEmpty_cons]
  unfold fromEnv checks
  dsimp only
  refine blames_guard (congrArg not entries) rfl (by decide +kernel) fun _ => ?_
  refine (step_parseEnv ..).bind fun listen _ => ?_
  refine (step_mapError ?_).bind fun uri parsed => ?_
  · intro e
    rw [String.toList_append]
    exact List.IsPrefix.trans (by decide +kernel) (List.prefix_append _ _)
  refine blames_guard ?_ rfl (by decide +kernel) fun _ => ?_
  · have complete : (host.parseUri (baseText env)).toOption = some uri := by
      have base := ok_of_mapError parsed
      exact congrArg Except.toOption base
    rw [complete, Option.all_some, Uri.isComplete]
    cases uri.scheme <;> cases uri.authority <;> rfl
  refine (step_fits ..).bind fun upstreamTimeout _ => ?_
  refine (step_fits ..).bind fun maxQueueWait _ => ?_
  refine (step_fits ..).bind fun reportInterval _ => ?_
  refine (step_fits ..).bind fun windowMargin _ => ?_
  refine (step_fits ..).bind fun defaultRps _ => ?_
  refine (step_fits ..).bind fun maxBodyBytes _ => ?_
  refine (step_fits ..).bind fun workerThreads _ => ?_
  exact (step_parseBool ..).bind fun accessLog _ => blames_pure _

/-- A start that fails names the first variable that is wrong, in the order in which they are read. -/
theorem names_first_fault :
    (∀ cfg, fromEnv host env = .ok cfg → ∀ c ∈ checks host env, c.2 = true) ∧
      ∀ e, fromEnv host env = .error e →
        ∃ c, (checks host env).find? (!·.2) = some c ∧ c.1.toList <+: e.toList := by
  have blames := fromEnv_blames host env
  constructor
  · intro cfg ok
    rwa [ok] at blames
  · intro e failed
    rwa [failed] at blames

end Checks

/-- The configuration says what the variables say. -/
structure Reads (host : EnvHost) (env : Env) (cfg : Config) : Prop where
  keys : cfg.keys = (keyEntries env).eraseDups
  keyed : cfg.keys ≠ []
  duplicates : cfg.keys.length + cfg.duplicateKeys = (keyEntries env).length
  listen : host.parseSocketAddr (setting env "LISTEN_ADDR" "0.0.0.0:8080") = .ok cfg.listen
  base : cfg.upstreamBase = String.ofList (baseText env)
  uri : ∃ uri, host.parseUri (baseText env) = .ok uri ∧ uri.isComplete = true
  upstreamTimeout : ∃ n, SaysNumber env "UPSTREAM_TIMEOUT_MS" "15000" u64Max n ∧
    cfg.upstreamTimeout = .fromMillis n
  maxQueueWait : ∃ n, SaysNumber env "MAX_QUEUE_WAIT_MS" "5000" u64Max n ∧
    cfg.maxQueueWait = .fromMillis n
  reportInterval : ∃ n, SaysNumber env "REPORT_INTERVAL_SECS" "60" u64Max n ∧
    cfg.reportInterval = .fromSecs (max n 1)
  windowMargin : ∃ n, SaysNumber env "WINDOW_MARGIN_MS" "100" u64Max n ∧
    cfg.windowMargin = .fromMillis n
  defaultRps : ∃ n, SaysNumber env "DEFAULT_RPS_PER_KEY" "1" u32Max n ∧
    cfg.defaultRpsPerKey.val = max n 1
  maxBodyBytes : SaysNumber env "MAX_BODY_BYTES" "4194304" u64Max cfg.maxBodyBytes
  proxyToken : ∀ token, cfg.proxyToken = some token ↔
    token ≠ "" ∧ ∃ raw, env "PROXY_TOKEN" = some raw ∧ token = String.ofList (Text.trim raw.toList)
  workerThreads : ∃ n, SaysNumber env "WORKER_THREADS" "2" u64Max n ∧ cfg.workerThreads = max n 1
  accessLog : settingWord env "ACCESS_LOG" "true" ∈ if cfg.accessLog then yesWords else noWords
  monthlyLimits : cfg.monthlyLimits =
    (((env "BRAVE_MONTHLY_LIMITS").filter (!isBlank ·)).map parseLimits).getD []

section Reads

variable {host : EnvHost} {env : Env} {cfg cfg' : Config} {name default : String} {max n m : Nat}

theorem addKey_count (parts : List (List Char)) (acc : List String × Nat) :
    (parts.foldl addKey acc).1.length + (parts.foldl addKey acc).2 =
      acc.1.length + acc.2 + ((parts.map Text.trim).filter (!·.isEmpty)).length := by
  induction parts generalizing acc with
  | nil => rfl
  | cons part parts ih =>
    rw [List.foldl_cons, ih, List.map_cons, List.filter_cons]
    unfold addKey
    dsimp only
    by_cases blank : (Text.trim part).isEmpty = true
    · rw [if_pos blank, blank]
      rfl
    · rw [if_neg blank]
      simp only [blank]
      by_cases known : acc.1.contains (String.ofList (Text.trim part)) = true
      · rw [if_pos known]
        simp only [Bool.not_false, if_true, List.length_cons]
        omega
      · rw [if_neg known]
        simp only [Bool.not_false, if_true, List.length_cons, List.length_append, List.length_nil]
        omega

theorem saysNumber_of_parseEnv {value : Text.UpTo max}
    (ok : parseEnv host env (fromStr max) name default = .ok value) :
    SaysNumber env name default max value.val := by
  have read : fromStr max (setting env name default) = .ok value := ok_of_mapError ok
  exact ⟨value.property, Text.parseUnsigned_ok_iff.mp (ok_of_mapError read)⟩

theorem parsed_of_saysNumber (number : SaysNumber env name default max n) :
    Text.parseUnsigned max (setting env name default) = .ok ⟨n, number.1⟩ :=
  Text.parseUnsigned_ok_iff.mpr number.2

theorem SaysNumber.unique (one : SaysNumber env name default max n)
    (other : SaysNumber env name default max m) : n = m := by
  cases (parsed_of_saysNumber one).symm.trans (parsed_of_saysNumber other)
  rfl

theorem SaysNumber.fits (number : SaysNumber env name default max n) :
    (fits env max name default).2 = true := by
  unfold Config.fits fromStr
  rw [parsed_of_saysNumber number]
  rfl

theorem word_of_parseBool {b : Bool} (ok : parseBool host env "ACCESS_LOG" true = .ok b) :
    settingWord env "ACCESS_LOG" "true" ∈ if b then yesWords else noWords := by
  rw [parseBool_eq] at ok
  dsimp only at ok
  split at ok
  · rename_i yes
    cases ok
    exact List.contains_iff_mem.mp yes
  · split at ok
    · rename_i no
      cases ok
      exact List.contains_iff_mem.mp no
    · cases ok

theorem proxyToken_iff (env : Env) (token : String) :
    ((env "PROXY_TOKEN").map fun s => String.ofList (Text.trim s.toList)).filter (!·.isEmpty) =
        some token ↔
      token ≠ "" ∧ ∃ raw, env "PROXY_TOKEN" = some raw ∧ token = String.ofList (Text.trim raw.toList) := by
  rw [Option.filter_eq_some_iff, Option.map_eq_some_iff, and_comm, Bool.not_eq_true',
    String.isEmpty_eq_false_iff]
  simp only [eq_comm]

theorem reads_of_ok (ok : fromEnv host env = .ok cfg) : Reads host env cfg := by
  unfold fromEnv at ok
  dsimp only at ok
  split at ok
  · cases ok
  rename_i keyed
  obtain ⟨listen, listens, ok⟩ := ok_of_bind ok
  obtain ⟨uri, parsed, ok⟩ := ok_of_bind ok
  split at ok
  · cases ok
  rename_i complete
  obtain ⟨upstreamTimeout, timeout, ok⟩ := ok_of_bind ok
  obtain ⟨maxQueueWait, wait, ok⟩ := ok_of_bind ok
  obtain ⟨reportInterval, interval, ok⟩ := ok_of_bind ok
  obtain ⟨windowMargin, margin, ok⟩ := ok_of_bind ok
  obtain ⟨defaultRps, rps, ok⟩ := ok_of_bind ok
  obtain ⟨maxBodyBytes, bytes, ok⟩ := ok_of_bind ok
  obtain ⟨workerThreads, threads, ok⟩ := ok_of_bind ok
  obtain ⟨accessLog, log, ok⟩ := ok_of_bind ok
  cases ok
  have count := addKey_count
    (splitKeys ((firstEnv env ["BRAVE_API_KEYS", "BRAVE_KEYS"]).getD "").toList) ([], 0)
  refine
    { keys := fromEnv_keys env
      keyed := mt List.isEmpty_iff.mpr keyed
      duplicates := by simpa [keyEntries] using count
      listen := ok_of_mapError listens
      base := rfl
      uri := ⟨uri, ok_of_mapError parsed, ?_⟩
      upstreamTimeout := ⟨_, saysNumber_of_parseEnv timeout, rfl⟩
      maxQueueWait := ⟨_, saysNumber_of_parseEnv wait, rfl⟩
      reportInterval := ⟨_, saysNumber_of_parseEnv interval, rfl⟩
      windowMargin := ⟨_, saysNumber_of_parseEnv margin, rfl⟩
      defaultRps := ⟨_, saysNumber_of_parseEnv rps, rfl⟩
      maxBodyBytes := saysNumber_of_parseEnv bytes
      proxyToken := proxyToken_iff env
      workerThreads := ⟨_, saysNumber_of_parseEnv threads, rfl⟩
      accessLog := word_of_parseBool log
      monthlyLimits := rfl }
  unfold Uri.isComplete
  revert complete
  cases uri.scheme <;> cases uri.authority <;> simp

theorem same_of_number {β : Type} {v v' : β} {f : Nat → β}
    (one : ∃ n, SaysNumber env name default max n ∧ v = f n)
    (other : ∃ n, SaysNumber env name default max n ∧ v' = f n) : v = v' := by
  obtain ⟨n, number, rfl⟩ := one
  obtain ⟨m, number', rfl⟩ := other
  exact congrArg f (number.unique number')

theorem Reads.unique (reads : Reads host env cfg) (reads' : Reads host env cfg') : cfg = cfg' := by
  have keys : cfg.keys = cfg'.keys := reads.keys.trans reads'.keys.symm
  have duplicates : cfg.duplicateKeys = cfg'.duplicateKeys := by
    have total := reads.duplicates.trans reads'.duplicates.symm
    rw [keys] at total
    omega
  have listen : cfg.listen = cfg'.listen := Except.ok.inj (reads.listen.symm.trans reads'.listen)
  have base : cfg.upstreamBase = cfg'.upstreamBase := reads.base.trans reads'.base.symm
  have timeout := same_of_number reads.upstreamTimeout reads'.upstreamTimeout
  have wait := same_of_number reads.maxQueueWait reads'.maxQueueWait
  have interval := same_of_number reads.reportInterval reads'.reportInterval
  have margin := same_of_number reads.windowMargin reads'.windowMargin
  have rps : cfg.defaultRpsPerKey = cfg'.defaultRpsPerKey :=
    Subtype.ext (same_of_number reads.defaultRps reads'.defaultRps)
  have bytes := reads.maxBodyBytes.unique reads'.maxBodyBytes
  have token : cfg.proxyToken = cfg'.proxyToken := by
    apply Option.ext
    intro token
    rw [reads.proxyToken, reads'.proxyToken]
  have threads := same_of_number reads.workerThreads reads'.workerThreads
  have log : cfg.accessLog = cfg'.accessLog := by
    have word := reads.accessLog
    have word' := reads'.accessLog
    have apart : ∀ w ∈ yesWords, w ∉ noWords := by decide
    cases on : cfg.accessLog <;> cases on' : cfg'.accessLog <;> rw [on] at word <;> rw [on'] at word'
    · exact absurd word (apart _ word')
    · exact absurd word' (apart _ word)
  have limits : cfg.monthlyLimits = cfg'.monthlyLimits :=
    reads.monthlyLimits.trans reads'.monthlyLimits.symm
  cases cfg
  cases cfg'
  rw [mk.injEq]
  exact ⟨keys, duplicates, listen, base, timeout, wait, interval, margin, rps, bytes, token, threads,
    log, limits⟩

theorem Reads.checks (reads : Reads host env cfg) : ∀ c ∈ checks host env, c.2 = true := by
  obtain ⟨uri, parsed, complete⟩ := reads.uri
  obtain ⟨_, timeout, -⟩ := reads.upstreamTimeout
  obtain ⟨_, wait, -⟩ := reads.maxQueueWait
  obtain ⟨_, interval, -⟩ := reads.reportInterval
  obtain ⟨_, margin, -⟩ := reads.windowMargin
  obtain ⟨_, rps, -⟩ := reads.defaultRps
  obtain ⟨_, threads, -⟩ := reads.workerThreads
  have keyed : (!(keyEntries env).isEmpty) = true := by
    have some := reads.keyed
    rw [reads.keys] at some
    cases entries : keyEntries env with
    | nil =>
      rw [entries] at some
      exact absurd rfl some
    | cons => rfl
  have word : (yesWords ++ noWords).contains (settingWord env "ACCESS_LOG" "true") = true := by
    have known := reads.accessLog
    rw [List.contains_iff_mem, List.mem_append]
    split at known
    · exact .inl known
    · exact .inr known
  unfold Config.checks
  rw [parsed, reads.listen]
  simp only [List.forall_mem_cons]
  exact ⟨keyed, rfl, rfl, complete, timeout.fits, wait.fits, interval.fits, margin.fits, rps.fits,
    reads.maxBodyBytes.fits, threads.fits, word, nofun⟩

/-- What `from_env` makes of the variables is what they say, and it fails only where they say nothing. -/
theorem fromEnv_ok_iff (host : EnvHost) (env : Env) (cfg : Config) :
    fromEnv host env = .ok cfg ↔ Reads host env cfg := by
  constructor
  · exact reads_of_ok
  · intro reads
    obtain ⟨cfg', ok⟩ := (fromEnv_blames host env).ok_iff.mpr reads.checks
    rw [ok, (reads_of_ok ok).unique reads]

end Reads

end Config

end BraveRotator
