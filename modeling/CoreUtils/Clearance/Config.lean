import CoreUtils.Clearance.Launcher
import CoreUtils.Clearance.RuleForm
import CoreUtils.Clearance.ServerSafety
import CoreUtils.Library.StateExcept

/-!
# Starting the proxy from an environment

`resolveClearanceConfig` reads the settings of the proxy from its environment, `createProxyState`
checks and normalizes them again, and `startClearanceFromEnv` starts the server with them. A setting
that is malformed keeps the proxy from starting (`starts_iff`), and a proxy that has started opens
nothing that its environment does not list (`started_safe`).
-/

namespace CoreUtils.Clearance

open NumericText StateExcept Transition

/-! ## Settings -/

/-- The address to listen at, unless another is given. -/
def DEFAULT_LISTEN_HOST : Text := "127.0.0.1".toList

/-- The port to listen at. -/
def DEFAULT_PORT : ℤ := 19999

/-- The ports to connect to. -/
def DEFAULT_ALLOWED_PORTS : List ℤ := [443]

/-- How long resolved addresses are kept. -/
def DEFAULT_DNS_TTL_MS : ℤ := 60000

/-- How long a silent connection stays open. -/
def DEFAULT_IDLE_TIMEOUT_MS : ℤ := 120000

/-- How many connections there may be. -/
def DEFAULT_MAX_SOCKETS : ℤ := 1024

/-- The configuration of the proxy. -/
structure ClearanceConfig where
  allowedHosts : List Host
  allowedPorts : List ℕ
  dnsTtlMs : ℤ
  idleTimeoutMs : ℤ
  listenHost : Text
  maxSockets : ℤ
  port : ℤ
  shouldBlockPrivateIps : Bool

/-- `CreateClearanceServerOptions`, without the lookup and the logger. -/
structure CreateClearanceServerOptions where
  allowedHosts : List Host
  allowedPorts : Option (List ℤ)
  dnsTtlMs : Option ℤ
  idleTimeoutMs : Option ℤ
  maxSockets : Option ℤ
  shouldBlockPrivateIps : Option Bool

/-- The settings in `ProxyState`. -/
structure ProxySettings extends ProxyConfig ℤ where
  idleTimeoutMs : ℤ
  maxSockets : ℤ

/-- A port as it is given. -/
inductive RawPort where
  | number (port : ℤ)
  | text (raw : Text)

/-- The TCP port that is given, if it is one. -/
def RawPort.port (rawPort : RawPort) : Option ℕ :=
  let port := match rawPort with
    | .number port => some (port : ℚ)
    | .text raw => NumericText.number raw
  port.bind fun port ↦ if isValidPort port then some port.num.toNat else none

/-- A port in a message. -/
def RawPort.toText : RawPort → Text
  | .number port => (toString port).toList
  | .text raw => raw

/-- The ports that are given, without duplicates. -/
def normalizeAllowedPorts (rawPorts : List RawPort) : Except Failure (List ℕ) := do
  let ports ← rawPorts.mapM fun rawPort ↦
    match rawPort.port with
    | some port => Except.ok port
    | none =>
        .error ⟨none, "invalid TCP port in CLEARANCE_ALLOW_PORTS: ".toList ++ rawPort.toText⟩
  if ports.length = 0 then
    .error ⟨none, "CLEARANCE_ALLOW_PORTS must include at least one valid TCP port".toList⟩
  else .ok (OrderedMap.keys (OrderedSet.ofList ports))

/-- A setting that is an integer within bounds. -/
def parseIntegerEnv (env : ProcessEnv) (name : String) (fallback minimum maximum : ℤ) :
    Except Failure ℤ :=
  match env.value name with
  | none => .ok fallback
  | some value =>
      if (Text.trim Text.isWhiteSpace value).length = 0 then .ok fallback
      else
        match (number value).filter fun parsed ↦ parsed.den == 1 with
        | none => .error ⟨none, name.toList ++ " must be an integer".toList⟩
        | some parsed =>
            if parsed.num < minimum ∨ parsed.num > maximum then
              .error ⟨none, name.toList ++ " must be between ".toList ++
                (toString minimum).toList ++ " and ".toList ++ (toString maximum).toList⟩
            else .ok parsed.num

/-- The ports that an environment lists. -/
def listedPorts (env : ProcessEnv) : List Text :=
  parseList (some ((env.value "CLEARANCE_ALLOW_PORTS").getD
    ([','].intercalate (DEFAULT_ALLOWED_PORTS.map fun port ↦ (toString port).toList))))

/-- The settings in an environment. -/
def resolveClearanceConfig (runtime : Runtime) (platform : ListPlatform)
    (readFile : Text → Except Failure Text) (env : ProcessEnv) :
    Except Failure ClearanceConfig := do
  let allowedHosts ← resolveAllowlist runtime platform readFile env
  let allowedPorts ← normalizeAllowedPorts ((listedPorts env).map .text)
  let dnsTtlMs ←
    parseIntegerEnv env "CLEARANCE_DNS_TTL_MS" DEFAULT_DNS_TTL_MS 0 MAX_SAFE_INTEGER
  let idleTimeoutMs ←
    parseIntegerEnv env "CLEARANCE_IDLE_TIMEOUT_MS" DEFAULT_IDLE_TIMEOUT_MS 1 MAX_SAFE_INTEGER
  let maxSockets ←
    parseIntegerEnv env "CLEARANCE_MAX_SOCKETS" DEFAULT_MAX_SOCKETS 1 MAX_SAFE_INTEGER
  let port ← parseIntegerEnv env "CLEARANCE_PORT" DEFAULT_PORT 1 65535
  return {
    allowedHosts := allowedHosts
    allowedPorts := allowedPorts
    dnsTtlMs := dnsTtlMs
    idleTimeoutMs := idleTimeoutMs
    listenHost := (env.value "CLEARANCE_LISTEN_HOST").getD DEFAULT_LISTEN_HOST
    maxSockets := maxSockets
    port := port
    shouldBlockPrivateIps := env.value "CLEARANCE_ALLOW_PRIVATE_IPS" != some ['1'] }

/-- The settings of a server. -/
def createProxyState (runtime : Runtime) (options : CreateClearanceServerOptions) :
    Except Failure ProxySettings :=
  let allowedHosts := normalizeRules runtime options.allowedHosts
  if allowedHosts.length = 0 then
    .error ⟨none, "allowedHosts must include at least one valid host rule".toList⟩
  else do
    let allowedPorts ← normalizeAllowedPorts
      ((options.allowedPorts.getD DEFAULT_ALLOWED_PORTS).map .number)
    return {
      allowedHosts := allowedHosts
      allowedPorts := allowedPorts
      dnsTtlMs := options.dnsTtlMs.getD DEFAULT_DNS_TTL_MS
      shouldBlockPrivateIps := options.shouldBlockPrivateIps.getD true
      idleTimeoutMs := options.idleTimeoutMs.getD DEFAULT_IDLE_TIMEOUT_MS
      maxSockets := options.maxSockets.getD DEFAULT_MAX_SOCKETS }

/-- A server that listens, and what it has logged. -/
structure StartedClearance where
  settings : ProxySettings
  config : ClearanceConfig
  messages : List Text

/-- Start a server with the settings of an environment. `listen` may fail to bind its address. -/
def startClearanceFromEnv (runtime : Runtime) (platform : ListPlatform)
    (readFile : Text → Except Failure Text) (listen : Text → ℤ → Except Failure Unit)
    (env : ProcessEnv) : Except Failure StartedClearance := do
  let config ← resolveClearanceConfig runtime platform readFile env
  let settings ← createProxyState runtime
    { allowedHosts := config.allowedHosts
      allowedPorts := some (config.allowedPorts.map Int.ofNat)
      dnsTtlMs := some config.dnsTtlMs
      idleTimeoutMs := some config.idleTimeoutMs
      maxSockets := some config.maxSockets
      shouldBlockPrivateIps := some config.shouldBlockPrivateIps }
  listen config.listenHost config.port
  return {
    settings := settings
    config := config
    messages :=
      ["clearance listening on http://".toList ++ config.listenHost ++ [':'] ++
          (toString config.port).toList,
        "allowed hosts: ".toList ++ ", ".toList.intercalate config.allowedHosts,
        "allowed ports: ".toList ++
          [','].intercalate (config.allowedPorts.map fun port ↦ (toString port).toList)] }

/-! ## Ports -/

variable {runtime : Runtime} {platform : ListPlatform} {readFile : Text → Except Failure Text}
  {listen : Text → ℤ → Except Failure Unit} {env : ProcessEnv}

/-- A number is the port it is, if that is one. -/
theorem port_number {port : ℕ} (hpos : 1 ≤ port) (hle : port ≤ 65535) :
    (RawPort.number port).port = some port := by
  have hvalid : isValidPort (port : ℚ) = true := by
    simp only [isValidPort, Rat.den_natCast, BEq.rfl, Bool.true_and, Bool.and_eq_true,
      decide_eq_true_eq]
    exact ⟨by exact_mod_cast hpos, by exact_mod_cast hle⟩
  simp [RawPort.port, hvalid]

/-- A text is given as `parsePort` reads it. -/
theorem port_text (raw : Text) : (RawPort.text raw).port = parsePort raw := by
  unfold parsePort
  split
  next hlength =>
    -- a blank text is the number zero
    have hempty : parseLiteral (Text.trim Text.isWhiteSpace raw) = some ((0 : ℕ) : ℚ) := by
      rw [List.length_eq_zero_iff.mp hlength]
      rfl
    have hzero : number raw = some ((0 : ℕ) : ℚ) := by
      rw [number, hempty, Option.bind_some, roundToDouble_natCast (by norm_num)]
    have hinvalid : isValidPort ((0 : ℕ) : ℚ) = false := by decide
    rw [RawPort.port]
    simp only [hzero, Option.bind_some, hinvalid]
    rfl
  next => rfl

/-- The ports are accepted when there is one and all of them are TCP ports. -/
theorem normalizeAllowedPorts_eq_ok_iff {rawPorts : List RawPort} {ports : List ℕ} :
    normalizeAllowedPorts rawPorts = .ok ports ↔
      rawPorts ≠ [] ∧ (∀ rawPort ∈ rawPorts, rawPort.port ≠ none) ∧
        ports = OrderedMap.keys (OrderedSet.ofList (rawPorts.filterMap RawPort.port)) := by
  have hconverted : ∀ {converted : List ℕ}, (rawPorts.mapM fun rawPort ↦
      match rawPort.port with
      | some port => Except.ok port
      | none =>
          .error (⟨none, "invalid TCP port in CLEARANCE_ALLOW_PORTS: ".toList ++ rawPort.toText⟩ :
            Failure)) = .ok converted ↔
      (∀ rawPort ∈ rawPorts, rawPort.port ≠ none) ∧
        converted = rawPorts.filterMap RawPort.port := by
    intro converted
    rw [mapM_eq_ok_iff, ← forall₂_eq_some_iff]
    refine iff_of_eq (congrArg (fun related ↦ List.Forall₂ related rawPorts converted) ?_)
    funext rawPort port
    cases rawPort.port with
    | none => simp
    | some other => simp
  unfold normalizeAllowedPorts
  rw [except_bind_eq_ok]
  constructor
  · rintro ⟨converted, hmap, h⟩
    obtain ⟨hall, rfl⟩ := hconverted.mp hmap
    split at h
    · contradiction
    next hlength =>
      refine ⟨?_, hall, (Except.ok.inj h).symm⟩
      rintro rfl
      exact hlength rfl
  · rintro ⟨hne, hall, rfl⟩
    refine ⟨_, hconverted.mpr ⟨hall, rfl⟩, if_neg fun hlength ↦ ?_⟩
    obtain ⟨rawPort, hmem⟩ := List.exists_mem_of_ne_nil rawPorts hne
    obtain ⟨port, hport⟩ := Option.ne_none_iff_exists'.mp (hall rawPort hmem)
    have hkept : port ∈ rawPorts.filterMap RawPort.port :=
      List.mem_filterMap.mpr ⟨rawPort, hmem, hport⟩
    rw [List.length_eq_zero_iff.mp hlength] at hkept
    contradiction

/-- The ports of a list that has been accepted. -/
theorem mem_normalizeAllowedPorts {items : List Text} {ports : List ℕ}
    (h : normalizeAllowedPorts (items.map .text) = .ok ports) {port : ℕ} :
    port ∈ ports ↔ ∃ item ∈ items, parsePort item = some port := by
  obtain ⟨-, -, rfl⟩ := normalizeAllowedPorts_eq_ok_iff.mp h
  rw [OrderedSet.mem_keys_ofList, List.mem_filterMap]
  simp only [List.mem_map, exists_exists_and_eq_and, port_text]

/-- Ports that have been accepted are accepted again, and are the same. -/
theorem normalizeAllowedPorts_twice {items : List Text} {ports : List ℕ}
    (h : normalizeAllowedPorts (items.map .text) = .ok ports) :
    normalizeAllowedPorts ((ports.map Int.ofNat).map .number) = .ok ports := by
  have hmem := @mem_normalizeAllowedPorts items ports h
  obtain ⟨hne, hall, hports⟩ := normalizeAllowedPorts_eq_ok_iff.mp h
  have hkept : ∀ port ∈ ports, (RawPort.number (Int.ofNat port)).port = some port := by
    intro port hport
    obtain ⟨item, -, hitem⟩ := hmem.mp hport
    obtain ⟨-, hpos, hle⟩ := parsePort_eq_some_iff.mp hitem
    exact port_number hpos hle
  have hsame : ((ports.map Int.ofNat).map RawPort.number).filterMap RawPort.port = ports := by
    rw [List.map_map, List.filterMap_map]
    exact (List.filterMap_congr hkept).trans List.filterMap_some
  have hnodup : ports.Nodup := hports ▸ (OrderedSet.ofList _).nodup
  refine normalizeAllowedPorts_eq_ok_iff.mpr ⟨?_, ?_, ?_⟩
  · -- the first port of the list has been kept
    obtain ⟨rawPort, hraw⟩ := List.exists_mem_of_ne_nil _ hne
    obtain ⟨item, hitem, rfl⟩ := List.mem_map.mp hraw
    obtain ⟨port, hport⟩ := Option.ne_none_iff_exists'.mp (hall _ hraw)
    have hthere : port ∈ ports := hmem.mpr ⟨item, hitem, port_text item ▸ hport⟩
    simp [List.ne_nil_of_mem hthere]
  · intro rawPort hraw
    obtain ⟨number, hnumber, rfl⟩ := List.mem_map.mp hraw
    obtain ⟨port, hport, rfl⟩ := List.mem_map.mp hnumber
    rw [hkept port hport]
    exact Option.some_ne_none port
  · rw [hsame, OrderedSet.keys_ofList hnodup]

/-! ## Integers -/

/-- What a setting that is an integer stands for: its default where it is blank, or a number within
its bounds. -/
inductive ReadsInteger (env : ProcessEnv) (name : String) (fallback minimum maximum : ℤ) :
    ℤ → Prop where
  | absent : env.value name = none → ReadsInteger env name fallback minimum maximum fallback
  | blank {value : Text} : env.value name = some value → Text.trim Text.isWhiteSpace value = [] →
      ReadsInteger env name fallback minimum maximum fallback
  | given {value : Text} {n : ℤ} : env.value name = some value →
      Text.trim Text.isWhiteSpace value ≠ [] → number value = some (n : ℚ) → minimum ≤ n →
      n ≤ maximum → ReadsInteger env name fallback minimum maximum n

/-- An integer setting is accepted when it stands for something. -/
theorem parseIntegerEnv_eq_ok_iff {name : String} {fallback minimum maximum n : ℤ} :
    parseIntegerEnv env name fallback minimum maximum = .ok n ↔
      ReadsInteger env name fallback minimum maximum n := by
  unfold parseIntegerEnv
  constructor
  · intro h
    split at h
    next habsent =>
      obtain rfl := Except.ok.inj h
      exact .absent habsent
    next value hvalue =>
      split at h
      next hlength =>
        obtain rfl := Except.ok.inj h
        exact .blank hvalue (List.length_eq_zero_iff.mp hlength)
      next hlength =>
        split at h
        next => contradiction
        next parsed hparsed =>
          obtain ⟨hnumber, hinteger⟩ := Option.filter_eq_some_iff.mp hparsed
          split at h
          next => contradiction
          next hbounds =>
            obtain rfl := Except.ok.inj h
            have hvalueOf : parsed = (parsed.num : ℚ) :=
              ((Rat.den_eq_one_iff parsed).mp (by simpa using hinteger)).symm
            refine .given hvalue (fun hblank ↦ hlength (by rw [hblank]; rfl))
              (hnumber.trans (congrArg some hvalueOf)) ?_ ?_
            · omega
            · omega
  · intro h
    cases h with
    | absent habsent => rw [habsent]
    | blank hvalue hblank =>
        rw [hvalue]
        exact if_pos (by rw [hblank]; rfl)
    | given hvalue hblank hnumber hmin hmax =>
        rw [hvalue]
        have hparsed : (number _).filter (fun parsed : ℚ ↦ parsed.den == 1) = some (n : ℚ) :=
          Option.filter_eq_some_iff.mpr ⟨hnumber, by simp⟩
        simp only [hparsed]
        rw [if_neg (fun hlength ↦ hblank (List.length_eq_zero_iff.mp hlength)),
          if_neg (by simp only [Rat.num_intCast]; omega), Rat.num_intCast]

/-! ## Hosts -/

/-- A rule stands in the environment, or in a file that it names. -/
def ListsHost (platform : ListPlatform) (readFile : Text → Except Failure Text) (env : ProcessEnv)
    (rule : Host) : Prop :=
  rule ∈ parseList (env.value "CLEARANCE_ALLOW_HOSTS") ∨
    ∃ path ∈ parseFilesEnv platform.delimiter (env.value "CLEARANCE_ALLOW_HOSTS_FILES"),
      ∃ content, readFile path = .ok content ∧ rule ∈ hostsOf content

/-- Every file that the environment names can be read. -/
def FilesReadable (platform : ListPlatform) (readFile : Text → Except Failure Text)
    (env : ProcessEnv) : Prop :=
  ∀ path ∈ parseFilesEnv platform.delimiter (env.value "CLEARANCE_ALLOW_HOSTS_FILES"),
    ∃ content, readFile path = .ok content

/-- The hosts files are read one by one. -/
theorem mapM_readHostsFile_eq_ok_iff {paths : List Text} {hosts : List (List Host)} :
    paths.mapM (readHostsFile platform readFile) = .ok hosts ↔
      (∀ path ∈ paths, ∃ content, readFile path = .ok content) ∧
        hosts = paths.filterMap fun path ↦ (readFile path).toOption.map hostsOf := by
  have hread : ∀ path hosts, readHostsFile platform readFile path = .ok hosts ↔
      (readFile path).toOption.map hostsOf = some hosts := by
    intro path hosts
    unfold readHostsFile
    cases readFile path with
    | error error => simp [Except.toOption]
    | ok content => simp [Except.toOption]
  have hreadable : ∀ path, (readFile path).toOption.map hostsOf ≠ none ↔
      ∃ content, readFile path = .ok content := by
    intro path
    cases readFile path with
    | error error => simp [Except.toOption]
    | ok content => simp [Except.toOption]
  rw [mapM_eq_ok_iff]
  simp only [hread, forall₂_eq_some_iff, hreadable]

/-- The rules that the environment and its files list. -/
theorem mem_listed {rule : Host} :
    rule ∈ parseList (env.value "CLEARANCE_ALLOW_HOSTS") ++
        ((parseFilesEnv platform.delimiter (env.value "CLEARANCE_ALLOW_HOSTS_FILES")).filterMap
          fun path ↦ (readFile path).toOption.map hostsOf).flatten ↔
      ListsHost platform readFile env rule := by
  have hfile : ∀ path hosts, (readFile path).toOption.map hostsOf = some hosts ↔
      ∃ content, readFile path = .ok content ∧ hostsOf content = hosts := by
    intro path hosts
    cases readFile path with
    | error error => simp [Except.toOption]
    | ok content => simp [Except.toOption]
  rw [List.mem_append, ListsHost]
  simp only [List.mem_flatten, List.mem_filterMap, hfile]
  constructor
  · rintro (hlisted | ⟨hosts, ⟨path, hpath, content, hcontent, rfl⟩, hrule⟩)
    · exact .inl hlisted
    · exact .inr ⟨path, hpath, content, hcontent, hrule⟩
  · rintro (hlisted | ⟨path, hpath, content, hcontent, hrule⟩)
    · exact .inl hlisted
    · exact .inr ⟨_, ⟨path, hpath, content, hcontent, rfl⟩, hrule⟩

/-- The allow list that is resolved has the normal forms of the rules that are listed. -/
theorem resolveAllowlist_spec {hosts : List Host}
    (h : resolveAllowlist runtime platform readFile env = .ok hosts) :
    FilesReadable platform readFile env ∧ ∀ normal, normal ∈ hosts ↔
      ∃ rule, ListsHost platform readFile env rule ∧ normalizeRule runtime rule = some normal := by
  obtain ⟨fromFiles, hfiles, h⟩ := except_bind_eq_ok.mp h
  obtain ⟨hreadable, rfl⟩ := mapM_readHostsFile_eq_ok_iff.mp hfiles
  simp only at h
  split at h
  next => contradiction
  next =>
    obtain rfl := Except.ok.inj h
    refine ⟨hreadable, fun normal ↦ ?_⟩
    rw [OrderedSet.mem_keys_ofList, List.mem_filterMap]
    simp only [mem_listed]

/-- The allow list is resolved where every file can be read and a rule is left. -/
theorem exists_resolveAllowlist (hreadable : FilesReadable platform readFile env)
    {rule normal : Host} (hlisted : ListsHost platform readFile env rule)
    (hnormal : normalizeRule runtime rule = some normal) :
    ∃ hosts, resolveAllowlist runtime platform readFile env = .ok hosts := by
  have hfiles : (parseFilesEnv platform.delimiter
        (env.value "CLEARANCE_ALLOW_HOSTS_FILES")).mapM (readHostsFile platform readFile) = _ :=
    mapM_readHostsFile_eq_ok_iff.mpr ⟨hreadable, rfl⟩
  have hkept := List.mem_filterMap.mpr ⟨rule, mem_listed.mpr hlisted, hnormal⟩
  refine ⟨_, except_bind_eq_ok.mpr ⟨_, hfiles, if_neg fun hlength ↦ ?_⟩⟩
  rw [List.length_eq_zero_iff.mp hlength] at hkept
  contradiction

/-! ## Starting -/

/-- What the settings of a proxy have to be for it to start. -/
structure Startable (runtime : Runtime) (platform : ListPlatform)
    (readFile : Text → Except Failure Text) (listen : Text → ℤ → Except Failure Unit)
    (env : ProcessEnv) : Prop where
  readable : FilesReadable platform readFile env
  host : ∃ rule once twice, ListsHost platform readFile env rule ∧
    normalizeRule runtime rule = some once ∧ normalizeRule runtime once = some twice
  somePort : listedPorts env ≠ []
  ports : ∀ item ∈ listedPorts env, parsePort item ≠ none
  dnsTtlMs : ∃ n, ReadsInteger env "CLEARANCE_DNS_TTL_MS" DEFAULT_DNS_TTL_MS 0 MAX_SAFE_INTEGER n
  idleTimeoutMs : ∃ n,
    ReadsInteger env "CLEARANCE_IDLE_TIMEOUT_MS" DEFAULT_IDLE_TIMEOUT_MS 1 MAX_SAFE_INTEGER n
  maxSockets : ∃ n,
    ReadsInteger env "CLEARANCE_MAX_SOCKETS" DEFAULT_MAX_SOCKETS 1 MAX_SAFE_INTEGER n
  listens : ∃ n, ReadsInteger env "CLEARANCE_PORT" DEFAULT_PORT 1 65535 n ∧
    listen ((env.value "CLEARANCE_LISTEN_HOST").getD DEFAULT_LISTEN_HOST) n = .ok ()

/-- What a proxy that has started enforces. -/
structure Enforces (runtime : Runtime) (platform : ListPlatform)
    (readFile : Text → Except Failure Text) (env : ProcessEnv) (settings : ProxySettings) :
    Prop where
  hosts : ∀ rule, rule ∈ settings.allowedHosts ↔ ∃ listed once,
    ListsHost platform readFile env listed ∧ normalizeRule runtime listed = some once ∧
      normalizeRule runtime once = some rule
  ports : ∀ port, port ∈ settings.allowedPorts ↔
    ∃ item ∈ listedPorts env, parsePort item = some port
  dnsTtlMs : ReadsInteger env "CLEARANCE_DNS_TTL_MS" DEFAULT_DNS_TTL_MS 0 MAX_SAFE_INTEGER
    settings.dnsTtlMs
  idleTimeoutMs : ReadsInteger env "CLEARANCE_IDLE_TIMEOUT_MS" DEFAULT_IDLE_TIMEOUT_MS 1
    MAX_SAFE_INTEGER settings.idleTimeoutMs
  maxSockets : ReadsInteger env "CLEARANCE_MAX_SOCKETS" DEFAULT_MAX_SOCKETS 1 MAX_SAFE_INTEGER
    settings.maxSockets
  privateIps : settings.shouldBlockPrivateIps = false ↔
    env.value "CLEARANCE_ALLOW_PRIVATE_IPS" = some ['1']

/-- What a server starts with that has been given what `resolveClearanceConfig` resolves. -/
theorem createProxyState_eq_ok_iff {options : CreateClearanceServerOptions} {items : List Text}
    {ports : List ℕ} {settings : ProxySettings}
    (hports : normalizeAllowedPorts (items.map .text) = .ok ports)
    (hgiven : options.allowedPorts = some (ports.map Int.ofNat)) :
    createProxyState runtime options = .ok settings ↔
      normalizeRules runtime options.allowedHosts ≠ [] ∧
        settings =
          { allowedHosts := normalizeRules runtime options.allowedHosts
            allowedPorts := ports
            dnsTtlMs := options.dnsTtlMs.getD DEFAULT_DNS_TTL_MS
            shouldBlockPrivateIps := options.shouldBlockPrivateIps.getD true
            idleTimeoutMs := options.idleTimeoutMs.getD DEFAULT_IDLE_TIMEOUT_MS
            maxSockets := options.maxSockets.getD DEFAULT_MAX_SOCKETS } := by
  have htwice := normalizeAllowedPorts_twice hports
  unfold createProxyState
  simp only [hgiven, Option.getD_some, htwice]
  constructor
  · intro h
    split at h
    next => contradiction
    next hlength =>
      refine ⟨fun hnil ↦ hlength (by rw [hnil]; rfl), (Except.ok.inj h).symm⟩
  · rintro ⟨hne, rfl⟩
    exact if_neg fun hlength ↦ hne (List.length_eq_zero_iff.mp hlength)

/-- The rules that are enforced are those that are listed, normalized twice. -/
theorem mem_normalizeRules_resolveAllowlist {hosts : List Host}
    (h : resolveAllowlist runtime platform readFile env = .ok hosts) {rule : Host} :
    rule ∈ normalizeRules runtime hosts ↔ ∃ listed once,
      ListsHost platform readFile env listed ∧ normalizeRule runtime listed = some once ∧
        normalizeRule runtime once = some rule := by
  have hhosts := (resolveAllowlist_spec h).2
  rw [normalizeRules, OrderedSet.mem_keys_ofList, List.mem_filterMap]
  constructor
  · rintro ⟨once, honce, hrule⟩
    obtain ⟨listed, hlisted, hnormal⟩ := (hhosts once).mp honce
    exact ⟨listed, once, hlisted, hnormal, hrule⟩
  · rintro ⟨listed, once, hlisted, hnormal, hrule⟩
    exact ⟨once, (hhosts once).mpr ⟨listed, hlisted, hnormal⟩, hrule⟩

/-- A proxy that starts could do so, and enforces its settings. -/
theorem startClearanceFromEnv_eq_ok {started : StartedClearance}
    (h : startClearanceFromEnv runtime platform readFile listen env = .ok started) :
    Startable runtime platform readFile listen env ∧
      Enforces runtime platform readFile env started.settings := by
  obtain ⟨config, hconfig, h⟩ := except_bind_eq_ok.mp h
  obtain ⟨settings, hsettings, h⟩ := except_bind_eq_ok.mp h
  obtain ⟨⟨⟩, hlisten, h⟩ := except_bind_eq_ok.mp h
  obtain rfl := Except.ok.inj h
  obtain ⟨hosts, hhosts, hconfig⟩ := except_bind_eq_ok.mp hconfig
  obtain ⟨ports, hports, hconfig⟩ := except_bind_eq_ok.mp hconfig
  obtain ⟨dnsTtlMs, hdns, hconfig⟩ := except_bind_eq_ok.mp hconfig
  obtain ⟨idleTimeoutMs, hidle, hconfig⟩ := except_bind_eq_ok.mp hconfig
  obtain ⟨maxSockets, hsockets, hconfig⟩ := except_bind_eq_ok.mp hconfig
  obtain ⟨port, hport, hconfig⟩ := except_bind_eq_ok.mp hconfig
  obtain rfl := Except.ok.inj hconfig
  obtain ⟨hne, rfl⟩ := (createProxyState_eq_ok_iff hports rfl).mp hsettings
  rw [parseIntegerEnv_eq_ok_iff] at hdns hidle hsockets hport
  have hmem := @mem_normalizeRules_resolveAllowlist runtime platform readFile env hosts hhosts
  obtain ⟨hitems, hvalid, -⟩ := normalizeAllowedPorts_eq_ok_iff.mp hports
  refine ⟨⟨(resolveAllowlist_spec hhosts).1, ?_, fun hnil ↦ hitems (by rw [hnil]; rfl),
    fun item hitem ↦ ?_, ⟨_, hdns⟩, ⟨_, hidle⟩, ⟨_, hsockets⟩, ⟨_, hport, hlisten⟩⟩,
    ⟨fun _ ↦ hmem, fun port ↦ mem_normalizeAllowedPorts hports, hdns, hidle, hsockets, ?_⟩⟩
  · obtain ⟨twice, htwice⟩ := List.exists_mem_of_ne_nil _ hne
    obtain ⟨listed, once, hlisted, honce, htwice⟩ := hmem.mp htwice
    exact ⟨listed, once, twice, hlisted, honce, htwice⟩
  · exact port_text item ▸ hvalid _ (List.mem_map.mpr ⟨item, hitem, rfl⟩)
  · simp

/-- A proxy whose settings are well formed starts. -/
theorem Startable.start (h : Startable runtime platform readFile listen env) :
    ∃ started, startClearanceFromEnv runtime platform readFile listen env = .ok started := by
  obtain ⟨rule, once, twice, hlisted, honce, htwice⟩ := h.host
  obtain ⟨hosts, hhosts⟩ := exists_resolveAllowlist h.readable hlisted honce
  obtain ⟨dnsTtlMs, hdns⟩ := h.dnsTtlMs
  obtain ⟨idleTimeoutMs, hidle⟩ := h.idleTimeoutMs
  obtain ⟨maxSockets, hsockets⟩ := h.maxSockets
  obtain ⟨port, hport, hlisten⟩ := h.listens
  rw [← parseIntegerEnv_eq_ok_iff] at hdns hidle hsockets hport
  obtain ⟨ports, hports⟩ :
      ∃ ports, normalizeAllowedPorts ((listedPorts env).map .text) = .ok ports := by
    refine ⟨_, normalizeAllowedPorts_eq_ok_iff.mpr ⟨by simpa using h.somePort, ?_, rfl⟩⟩
    intro rawPort hraw
    obtain ⟨item, hitem, rfl⟩ := List.mem_map.mp hraw
    exact port_text item ▸ h.ports item hitem
  obtain ⟨config, hconfig, rfl, rfl, haddress, rfl⟩ : ∃ config,
      resolveClearanceConfig runtime platform readFile env = .ok config ∧
        hosts = config.allowedHosts ∧ ports = config.allowedPorts ∧
        config.listenHost = (env.value "CLEARANCE_LISTEN_HOST").getD DEFAULT_LISTEN_HOST ∧
        port = config.port := by
    refine ⟨_, except_bind_eq_ok.mpr ⟨_, hhosts, except_bind_eq_ok.mpr ⟨_, hports,
      except_bind_eq_ok.mpr ⟨_, hdns, except_bind_eq_ok.mpr ⟨_, hidle, except_bind_eq_ok.mpr
        ⟨_, hsockets, except_bind_eq_ok.mpr ⟨_, hport, rfl⟩⟩⟩⟩⟩⟩, rfl, rfl, rfl, rfl⟩
  have hne : normalizeRules runtime config.allowedHosts ≠ [] :=
    List.ne_nil_of_mem ((mem_normalizeRules_resolveAllowlist hhosts).mpr
      ⟨rule, once, hlisted, honce, htwice⟩)
  rw [← haddress] at hlisten
  exact ⟨_, except_bind_eq_ok.mpr ⟨config, hconfig, except_bind_eq_ok.mpr
    ⟨_, (createProxyState_eq_ok_iff hports rfl).mpr ⟨hne, rfl⟩,
      except_bind_eq_ok.mpr ⟨(), hlisten, rfl⟩⟩⟩⟩

/-- A proxy starts if and only if all its settings are well formed, and then enforces them. -/
theorem starts_iff (runtime : Runtime) (platform : ListPlatform)
    (readFile : Text → Except Failure Text) (listen : Text → ℤ → Except Failure Unit)
    (env : ProcessEnv) :
    ((∃ started, startClearanceFromEnv runtime platform readFile listen env = .ok started) ↔
      Startable runtime platform readFile listen env) ∧
    ∀ started, startClearanceFromEnv runtime platform readFile listen env = .ok started →
      Enforces runtime platform readFile env started.settings :=
  ⟨⟨fun ⟨_, hstarted⟩ ↦ (startClearanceFromEnv_eq_ok hstarted).1, Startable.start⟩,
    fun _ hstarted ↦ (startClearanceFromEnv_eq_ok hstarted).2⟩

/-! ## A proxy that has started -/

/-- A rule admits its own host name or, if it is a wildcard, the longer names with its suffix. -/
def Admits (rule hostname : Host) : Prop :=
  hostname = rule ∨ ∃ front suffix, rule = '*' :: '.' :: suffix ∧ front ≠ [] ∧
    hostname = front ++ '.' :: suffix

/-- A host name is allowed when one of the rules admits it. -/
theorem exists_admits {hostname : Host} {rules : List Host}
    (h : hostAllowed hostname rules = true) : ∃ rule ∈ rules, Admits rule hostname := by
  obtain ⟨rule, hrule, hallowed⟩ := List.any_eq_true.mp h
  have hone : hostAllowed hostname [rule] = true := by
    rw [hostAllowed, List.any_cons, hallowed]
    rfl
  refine ⟨rule, hrule, ?_⟩
  by_cases hwild : ['*', '.'] <+: rule
  · obtain ⟨suffix, rfl⟩ := hwild
    obtain ⟨front, hfront, hname⟩ := (hostAllowed_wildcard hostname suffix).mp hone
    exact .inr ⟨front, suffix, rfl, hfront, hname⟩
  · exact .inl (hostAllowed_host hwild hone)

/-- Whatever happens to a proxy that has started, as long as lookups match their families: each
target that it opens for a client has the port and the normalized host that this client asked for, a
port that the environment lists, a host that a listed rule admits, and a public address unless the
environment allows private ones. -/
theorem started_safe {platform : ServerPlatform} {lists : ListPlatform} {started : StartedClearance}
    (hstart : startClearanceFromEnv platform.runtime lists readFile listen env = .ok started)
    {s : ServerState ℤ}
    (hrun : Reachable (serve platform started.settings.toProxyConfig) (fun _ a _ ↦ a.Matches)
      ServerState.initial s) :
    ∀ c ∈ s.connections, ∀ upstream ∈ c.upstream, ∃ asked,
      beginRequest platform c.request = .ok asked ∧
      normalizeHost platform.runtime asked.host = some upstream.target.hostname ∧
      upstream.target.port = asked.port ∧
      (∃ item ∈ listedPorts env, parsePort item = some upstream.target.port) ∧
      (∃ rule once twice, ListsHost lists readFile env rule ∧
        normalizeRule platform.runtime rule = some once ∧
        normalizeRule platform.runtime once = some twice ∧
        Admits twice upstream.target.hostname) ∧
      (env.value "CLEARANCE_ALLOW_PRIVATE_IPS" ≠ some ['1'] →
        Public ⟨upstream.target.address, upstream.target.family⟩) := by
  have henforces := (startClearanceFromEnv_eq_ok hstart).2
  intro c hc upstream hupstream
  obtain ⟨asked, hbegin, ⟨hhost, hport, hallowed⟩, hsame, hpublic⟩ :=
    (authorized_of_reachable hrun c hc).2 upstream hupstream
  obtain ⟨twice, htwice, hadmits⟩ := exists_admits hallowed
  obtain ⟨rule, once, hlisted, honce, htwice⟩ := (henforces.hosts twice).mp htwice
  refine ⟨asked, hbegin, hhost, hsame, ?_, ⟨rule, once, twice, hlisted, honce, htwice, hadmits⟩,
    fun hprivate ↦ hpublic ?_⟩
  · rw [hsame]
    exact (henforces.ports asked.port).mp hport
  · by_contra hoff
    exact hprivate (henforces.privateIps.mp (by simpa using hoff))

/-- An environment with a wildcard rule. -/
def exampleEnv : ProcessEnv :=
  OrderedMap.empty.set "CLEARANCE_ALLOW_HOSTS" (some "other.org, *.Example.COM.".toList)

/-- The proxy of that environment opens a tunnel to a public address. -/
theorem started_safe_tunnel :
    ∃ (started : StartedClearance) (s : ServerState ℤ) (upstream : Upstream),
      startClearanceFromEnv asciiRuntime ⟨':', id⟩ (fun _ ↦ .error ⟨none, []⟩)
        (fun _ _ ↦ .ok ()) exampleEnv = .ok started ∧
      follow (serve examplePlatform started.settings.toProxyConfig) (fun _ a _ ↦ a.Matches)
        .initial tunnelAndDenial = some s ∧
      (∃ c ∈ s.connections, upstream ∈ c.upstream) ∧
      Public ⟨upstream.target.address, upstream.target.family⟩ := by
  have hrun : (startClearanceFromEnv asciiRuntime ⟨':', id⟩ (fun _ ↦ .error ⟨none, []⟩)
      (fun _ _ ↦ .ok ()) exampleEnv).toOption.any (fun started ↦
        (follow (serve examplePlatform started.settings.toProxyConfig) (fun _ a _ ↦ a.Matches)
          .initial tunnelAndDenial).any fun s ↦
            s.connections.any fun c ↦ c.upstream.isSome) = true := by
    decide +kernel
  obtain ⟨started, hstarted, hrun⟩ := (Option.any_eq_true _ _).mp hrun
  obtain ⟨s, hs, hrun⟩ := (Option.any_eq_true _ _).mp hrun
  obtain ⟨c, hc, hopened⟩ := List.any_eq_true.mp hrun
  obtain ⟨upstream, hupstream⟩ := Option.isSome_iff_exists.mp hopened
  have hstart : startClearanceFromEnv asciiRuntime ⟨':', id⟩ (fun _ ↦ .error ⟨none, []⟩)
      (fun _ _ ↦ .ok ()) exampleEnv = .ok started := by
    revert hstarted
    cases startClearanceFromEnv asciiRuntime ⟨':', id⟩ (fun _ ↦ .error ⟨none, []⟩)
      (fun _ _ ↦ .ok ()) exampleEnv with
    | error failure => simp [Except.toOption]
    | ok other => simp [Except.toOption]
  obtain ⟨_, -, -, -, -, -, hpublic⟩ :=
    @started_safe _ _ _ examplePlatform _ _ hstart _ (Reachable.start.of_follow hs) c hc upstream
      hupstream
  exact ⟨started, s, upstream, hstart, hs, ⟨c, hc, hupstream⟩, hpublic (by decide)⟩

end CoreUtils.Clearance
