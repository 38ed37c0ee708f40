import AcmeChampion.ParseConfig

/-!
# The addresses of the configuration

The arguments override the environment: a slot holds the last address of its family that an
argument names, or what its variable spells (`Config.Updated`).  A variable is read as one address
of either family, and goes to its slot unseen, so a slot holds its own family exactly when the
variable does or an argument overrides it (`ownFamilies_iff`), and the variable means what the flag
does exactly when it is one IPv4 address (`sameAddrs_iff`).
-/

namespace AcmeChampion

/-! ## What the arguments set -/

/-- The last address of a family. -/
def lastAddr (family : SocketAddr → Bool) (addrs : List SocketAddr) : Option SocketAddr :=
  (addrs.filter family).getLast?

theorem lastAddr_append (family : SocketAddr → Bool) (addrs addrs' : List SocketAddr) :
    lastAddr family (addrs ++ addrs') = (lastAddr family addrs').or (lastAddr family addrs) := by
  unfold lastAddr
  rw [List.filter_append, List.getLast?_append]

theorem lastAddr_eq_none_iff {family : SocketAddr → Bool} {addrs : List SocketAddr} :
    lastAddr family addrs = none ↔ ∀ addr ∈ addrs, family addr = false := by
  unfold lastAddr
  rw [List.getLast?_eq_none_iff, List.filter_eq_nil_iff]
  simp

theorem of_lastAddr {family : SocketAddr → Bool} {addrs : List SocketAddr} {addr : SocketAddr}
    (h : lastAddr family addrs = some addr) : addr ∈ addrs ∧ family addr = true :=
  List.mem_filter.1 (List.mem_of_getLast? h)

/-- What overrides a slot is of its family, so the slot is if nothing of another is left to hold. -/
theorem or_lastAddr_iff (family : SocketAddr → Bool) (addrs : List SocketAddr)
    (slot : Option SocketAddr) :
    (∀ addr, (lastAddr family addrs).or slot = some addr → family addr = true) ↔
      ∀ addr, slot = some addr → family addr = true ∨ ∃ a ∈ addrs, family a = true := by
  rcases hlast : lastAddr family addrs with _ | last
  · have hnone : ¬ ∃ a ∈ addrs, family a = true := by
      rintro ⟨a, ha, hfamily⟩
      rw [lastAddr_eq_none_iff.1 hlast a ha] at hfamily
      cases hfamily
    simp only [Option.none_or, hnone, or_false]
  · obtain ⟨hmem, hfamily⟩ := of_lastAddr hlast
    refine iff_of_true ?_ fun addr _ => .inr ⟨last, hmem, hfamily⟩
    rintro addr haddr
    rw [Option.some_or, Option.some.injEq] at haddr
    exact haddr ▸ hfamily

/-- The slots are overridden by these addresses, and nothing else changes that depends on them. -/
structure Config.Updated (config config' : Config) (addrs : List SocketAddr) : Prop where
  dnsAddr4 : config'.dnsAddr4 = (lastAddr SocketAddr.isIpv4 addrs).or config.dnsAddr4
  dnsAddr6 : config'.dnsAddr6 = (lastAddr SocketAddr.isIpv6 addrs).or config.dnsAddr6
  requireV6 : config'.requireV6 = config.requireV6
  serverIps : config'.serverIps = config.serverIps

theorem Config.Updated.refl (config : Config) : config.Updated config [] := ⟨rfl, rfl, rfl, rfl⟩

theorem Config.Updated.trans {c c' c'' : Config} {addrs addrs' : List SocketAddr}
    (h : c.Updated c' addrs) (h' : c'.Updated c'' addrs') : c.Updated c'' (addrs ++ addrs') := by
  refine ⟨?_, ?_, h'.requireV6.trans h.requireV6, h'.serverIps.trans h.serverIps⟩
  · rw [h'.dnsAddr4, h.dnsAddr4, lastAddr_append, Option.or_assoc]
  · rw [h'.dnsAddr6, h.dnsAddr6, lastAddr_append, Option.or_assoc]

theorem updated_setDnsAddr (config : Config) (addr : SocketAddr) :
    config.Updated (setDnsAddr config addr) [addr] := by
  cases addr <;> exact ⟨rfl, rfl, rfl, rfl⟩

theorem updated_foldl : ∀ (addrs : List SocketAddr) (config : Config),
    config.Updated (addrs.foldl setDnsAddr config) addrs
  | [], config => .refl config
  | addr :: addrs, config =>
    (updated_setDnsAddr config addr).trans (updated_foldl addrs (setDnsAddr config addr))

section Args

variable {std : Std}

/-- The addresses that an option and its argument name. -/
def optionAddrs (std : Std) : ValueOption → String → List SocketAddr
  | .dnsAddr, s =>
    match parseAddrs std s with
    | .ok addrs => addrs
    | .error _ => []
  | _, _ => []

/-- The addresses that the arguments name, in order. -/
def argsAddrs (std : Std) : List String → List SocketAddr
  | [] => []
  | arg :: args =>
    match Flag.of (std.toLowercase arg), args with
    | .value option, s :: args => optionAddrs std option s ++ argsAddrs std args
    | .value _, [] => []
    | _, args => argsAddrs std args

theorem updated_setOption {flag s : String} {config config' : Config} {option : ValueOption}
    (h : setOption std flag s config option = .ok config') :
    config.Updated config' (optionAddrs std option s) := by
  cases option with
  | dnsAddr =>
    unfold setOption at h
    unfold optionAddrs
    rcases hparse : parseAddrs std s with e | addrs <;> simp only [hparse] at h ⊢
    · cases e <;> cases h
    · cases h
      exact updated_foldl addrs config
  | httpPort =>
    unfold setOption at h
    rcases hport : parseU16 s with _ | port <;> simp only [hport] at h <;> cases h
    exact ⟨rfl, rfl, rfl, rfl⟩
  | logLevel =>
    unfold setOption at h
    rcases hlevel : std.parseLevel s with _ | level <;> simp only [hlevel] at h <;> cases h
    exact ⟨rfl, rfl, rfl, rfl⟩
  | logFormat =>
    unfold setOption at h
    rcases hformat : LogFormat.fromStr std s with _ | format <;> simp only [hformat] at h <;>
      cases h
    exact ⟨rfl, rfl, rfl, rfl⟩
  | username =>
    cases h
    exact ⟨rfl, rfl, rfl, rfl⟩

theorem updated_parseArgs : ∀ {args : List String} {config config' : Config},
    parseArgs std args config = .ok config' → config.Updated config' (argsAddrs std args)
  | [], config, config', h => by
    cases h
    exact .refl config
  | [arg], config, config', h => by
    unfold parseArgs at h
    unfold argsAddrs
    rcases hflag : Flag.of (std.toLowercase arg) with option | _ | _ <;>
      simp only [hflag] at h ⊢
    · cases h
    · cases h
    · exact updated_parseArgs h
  | arg :: s :: args, config, config', h => by
    unfold parseArgs at h
    unfold argsAddrs
    rcases hflag : Flag.of (std.toLowercase arg) with option | _ | _ <;>
      simp only [hflag] at h ⊢
    · rcases hset : setOption std (std.toLowercase arg) s config option with e | config'' <;>
        simp only [hset] at h
      · cases h
      · exact (updated_setOption hset).trans (updated_parseArgs h)
    · cases h
    · exact updated_parseArgs h

end Args

/-! ## The defaults and the server's addresses -/

def IpAddr.toV4 : IpAddr → Option Ipv4Addr
  | .v4 ip => some ip
  | .v6 _ => none

def IpAddr.toV6 : IpAddr → Option Ipv6Addr
  | .v4 _ => none
  | .v6 ip => some ip

theorem IpAddr.toV4_eq_some_iff (ip : IpAddr) (a : Ipv4Addr) : ip.toV4 = some a ↔ ip = .v4 a := by
  cases ip <;> simp [toV4]

theorem IpAddr.toV6_eq_some_iff (ip : IpAddr) (a : Ipv6Addr) : ip.toV6 = some a ↔ ip = .v6 a := by
  cases ip <;> simp [toV6]

namespace Config

/-- A slot holds the address, and it is no wildcard. -/
def Binds (config : Config) (ip : IpAddr) : Prop :=
  ∃ addr, (config.dnsAddr4 = some addr ∨ config.dnsAddr6 = some addr) ∧
    addr.ip.isUnspecified = false ∧ addr.ip = ip

/-- Each slot holds an address of its family, and the server's own addresses are those of the
slots. -/
structure OwnFamilies (config : Config) : Prop where
  bound : config.dnsAddr4 ≠ none ∨ config.dnsAddr6 ≠ none
  ipv4 : ∀ addr, config.dnsAddr4 = some addr → addr.isIpv4 = true
  ipv6 : ∀ addr, config.dnsAddr6 = some addr → addr.isIpv6 = true
  serverV4 : ∀ ip, config.serverIps.v4 = some ip ↔ config.Binds (.v4 ip)
  serverV6 : ∀ ip, config.serverIps.v6 = some ip ↔ config.Binds (.v6 ip)

/-- The address of one family in a slot, unless it is the wildcard. -/
def specified {α : Type} (family : IpAddr → Option α) : Option SocketAddr → Option α
  | some addr => if addr.ip.isUnspecified then none else family addr.ip
  | none => none

theorem specified_eq_some_iff {α : Type} {family : IpAddr → Option α} {slot : Option SocketAddr}
    {a : α} : specified family slot = some a ↔ ∃ addr, slot = some addr ∧
      addr.ip.isUnspecified = false ∧ family addr.ip = some a := by
  rcases slot with _ | addr
  · simp [specified]
  · by_cases hip : addr.ip.isUnspecified = true <;> simp [specified, hip]

theorem withServerIpV4_eq {config : Config} (h : config.serverIps.v4 = none) :
    config.withServerIpV4 = { config with serverIps :=
      { config.serverIps with v4 := specified IpAddr.toV4 config.dnsAddr4 } } := by
  obtain ⟨port, addr4, addr6, requireV6, ⟨v4, v6⟩, level, format, user⟩ := config
  obtain rfl : v4 = none := h
  unfold withServerIpV4 specified
  rcases addr4 with _ | ⟨ip, port⟩ | ⟨ip, port, flowinfo, scopeId⟩
  · rfl
  · by_cases hip : (IpAddr.v4 ip).isUnspecified = true <;> simp [SocketAddr.ip, hip, IpAddr.toV4]
  · by_cases hip : (IpAddr.v6 ip).isUnspecified = true <;> simp [SocketAddr.ip, hip, IpAddr.toV4]

theorem withServerIpV6_eq {config : Config} (h : config.serverIps.v6 = none) :
    config.withServerIpV6 = { config with serverIps :=
      { config.serverIps with v6 := specified IpAddr.toV6 config.dnsAddr6 } } := by
  obtain ⟨port, addr4, addr6, requireV6, ⟨v4, v6⟩, level, format, user⟩ := config
  obtain rfl : v6 = none := h
  unfold withServerIpV6 specified
  rcases addr6 with _ | ⟨ip, port⟩ | ⟨ip, port, flowinfo, scopeId⟩
  · rfl
  · by_cases hip : (IpAddr.v4 ip).isUnspecified = true <;> simp [SocketAddr.ip, hip, IpAddr.toV6]
  · by_cases hip : (IpAddr.v6 ip).isUnspecified = true <;> simp [SocketAddr.ip, hip, IpAddr.toV6]

/-- The server's addresses are read off the slots. -/
theorem finish_eq (std : Std) {config : Config} (h : config.serverIps = ⟨none, none⟩) :
    config.finish std = { config.withDefaults std with
      serverIps := ⟨specified IpAddr.toV4 (config.withDefaults std).dnsAddr4,
        specified IpAddr.toV6 (config.withDefaults std).dnsAddr6⟩ } := by
  have hips : (config.withDefaults std).serverIps = ⟨none, none⟩ := by
    unfold withDefaults
    split_ifs <;> exact h
  unfold finish
  rw [withServerIpV4_eq (by rw [hips]), withServerIpV6_eq (by rw [hips])]

/-- The specified addresses of a family that the two slots hold are those of one slot, if the other
holds none of the family. -/
theorem specified_iff {α : Type} {family : IpAddr → Option α} {mk : α → IpAddr}
    (hfamily : ∀ ip a, family ip = some a ↔ ip = mk a) {slot other : Option SocketAddr}
    (hother : ∀ addr, other = some addr → family addr.ip = none) (a : α) :
    specified family slot = some a ↔ ∃ addr, (slot = some addr ∨ other = some addr) ∧
      addr.ip.isUnspecified = false ∧ addr.ip = mk a := by
  rw [specified_eq_some_iff]
  constructor
  · rintro ⟨addr, haddr, hspec, hip⟩
    exact ⟨addr, .inl haddr, hspec, (hfamily _ a).1 hip⟩
  · rintro ⟨addr, haddr | haddr, hspec, hip⟩
    · exact ⟨addr, haddr, hspec, (hfamily _ a).2 hip⟩
    · have hnone := hother addr haddr
      rw [(hfamily _ a).2 hip] at hnone
      cases hnone

theorem isIpv4_defaultAddrV4 (std : Std) : (defaultAddrV4 std).isIpv4 = true := rfl

theorem isIpv6_defaultAddrV6 (std : Std) : (defaultAddrV6 std).isIpv6 = true := rfl

theorem withDefaults_bound (std : Std) (config : Config) :
    (config.withDefaults std).dnsAddr4 ≠ none ∨ (config.withDefaults std).dnsAddr6 ≠ none := by
  unfold withDefaults
  split_ifs with h
  · exact .inl (by simp)
  · exact not_and_or.1 h

/-- A default is of the family of its slot. -/
theorem withDefaults_families (std : Std) (config : Config) :
    ((∀ addr, (config.withDefaults std).dnsAddr4 = some addr → addr.isIpv4 = true) ↔
      ∀ addr, config.dnsAddr4 = some addr → addr.isIpv4 = true) ∧
    ((∀ addr, (config.withDefaults std).dnsAddr6 = some addr → addr.isIpv6 = true) ↔
      ∀ addr, config.dnsAddr6 = some addr → addr.isIpv6 = true) := by
  unfold withDefaults
  split_ifs with h
  · simp [h.1, h.2, isIpv4_defaultAddrV4, isIpv6_defaultAddrV6]
  · exact ⟨Iff.rfl, Iff.rfl⟩

theorem ownFamilies_finish_iff (std : Std) {config : Config}
    (h : config.serverIps = ⟨none, none⟩) : (config.finish std).OwnFamilies ↔
      (∀ addr, config.dnsAddr4 = some addr → addr.isIpv4 = true) ∧
        ∀ addr, config.dnsAddr6 = some addr → addr.isIpv6 = true := by
  obtain ⟨hiff4, hiff6⟩ := withDefaults_families std config
  rw [← hiff4, ← hiff6, finish_eq std h]
  constructor
  · intro hown
    exact ⟨hown.ipv4, hown.ipv6⟩
  · rintro ⟨h4, h6⟩
    refine ⟨withDefaults_bound std config, h4, h6, fun ip => ?_, fun ip => ?_⟩
    · have hother : ∀ addr, (config.withDefaults std).dnsAddr6 = some addr →
          addr.ip.toV4 = none := by
        intro addr haddr
        have hfamily := h6 addr haddr
        cases addr
        · cases hfamily
        · rfl
      exact specified_iff IpAddr.toV4_eq_some_iff hother ip
    · have hother : ∀ addr, (config.withDefaults std).dnsAddr4 = some addr →
          addr.ip.toV6 = none := by
        intro addr haddr
        have hfamily := h4 addr haddr
        cases addr
        · rfl
        · cases hfamily
      refine (specified_iff IpAddr.toV6_eq_some_iff hother ip).trans ?_
      unfold Binds
      simp only [or_comm]

end Config

theorem parseConfig_ok {std : Std} {env : String → Option String} {args : List String}
    {config : Config} (h : parseConfig std env args = .ok config) :
    ∃ c, (Config.ofEnv std env).Updated c (argsAddrs std args) ∧ c.finish std = config := by
  unfold parseConfig at h
  rcases hargs : parseArgs std args (Config.ofEnv std env) with e | c <;>
    simp only [hargs, bind, Except.bind] at h
  · cases h
  · exact ⟨c, updated_parseArgs hargs, Except.ok.inj h⟩

theorem parseConfig_flag {std : Std} {s : String} {addrs : List SocketAddr}
    (env : String → Option String) (h : parseAddrs std s = .ok addrs) :
    parseConfig std env ["--dns-addr", s] =
      .ok ((addrs.foldl setDnsAddr (Config.ofEnv std env)).finish std) := by
  have hlower : std.toLowercase "--dns-addr" = "--dns-addr" :=
    std.toLowercase_lower "--dns-addr" (by decide)
  unfold parseConfig parseArgs
  simp only [hlower]
  rw [show Flag.of "--dns-addr" = .value .dnsAddr from rfl]
  simp only [setOption, h]
  rfl

/-- In a configuration that is accepted the slots hold their own families, and the server's
addresses follow them, exactly when each variable holds its own family or an argument overrides
it. -/
theorem ownFamilies_iff {std : Std} {env : String → Option String} {args : List String}
    {config : Config} (h : parseConfig std env args = .ok config) : config.OwnFamilies ↔
      (∀ addr, (env "CERTBOT_DNS_CHAMP_DNS_ADDR").bind (parseSocketish std) = some addr →
        addr.isIpv4 = true ∨ ∃ a ∈ argsAddrs std args, a.isIpv4 = true) ∧
      ∀ addr, (env "CERTBOT_DNS_CHAMP_DNS_ADDR_6").bind (parseSocketish std) = some addr →
        addr.isIpv6 = true ∨ ∃ a ∈ argsAddrs std args, a.isIpv6 = true := by
  obtain ⟨c, hc, rfl⟩ := parseConfig_ok h
  have hips : c.serverIps = ⟨none, none⟩ := hc.serverIps
  rw [Config.ownFamilies_finish_iff std hips, hc.dnsAddr4, hc.dnsAddr6, or_lastAddr_iff,
    or_lastAddr_iff]
  rfl

/-! ## A small library -/

/-- 192.0.2.1:53 -/
def documentationV4 : SocketAddr := .v4 0xC0000201 53

/-- [::1]:53 -/
def loopbackV6 : SocketAddr := .v6 1 53 0 0

/-- A library that knows two socket addresses. -/
def smallStd : Std where
  parseSocketAddr s :=
    if s = "192.0.2.1:53" then some documentationV4
    else if s = "[::1]:53" then some loopbackV6
    else none
  parseIpAddr _ := none
  parseLevel _ := none
  toLowercase s := String.ofList (s.toList.map Char.toLower)
  debugAssertions := false
  parseSocketAddr_space s hspace := by
    have hne : ∀ t : String, ' ' ∉ t.toList → s ≠ t := fun t ht heq => ht (heq ▸ hspace)
    rw [if_neg (hne _ (by decide)), if_neg (hne _ (by decide))]
  parseIpAddr_space _ _ := rfl
  toLowercase_lower s hlower := by
    have hmap : s.toList.map Char.toLower = s.toList := by
      refine (List.map_congr_left fun c hc => ?_).trans (List.map_id _)
      have hc := List.all_eq_true.1 hlower c hc
      rw [Bool.and_eq_true, Bool.not_eq_true'] at hc
      have hupper : ¬ (c.val ≥ 'A'.val ∧ c.val ≤ 'Z'.val) := of_decide_eq_false hc.2
      exact dif_neg hupper
    rw [hmap, String.ofList_toList]

def envOf (vars : List (String × String)) (name : String) : Option String := vars.lookup name

/-- An argument overrides a variable of the other family. -/
theorem ownFamilies_iff_override : ∃ config,
    parseConfig smallStd (envOf [("CERTBOT_DNS_CHAMP_DNS_ADDR", "[::1]:53")])
      ["--dns-addr", "192.0.2.1:53"] = .ok config ∧ config.OwnFamilies := by
  have hparse : parseAddrs smallStd "192.0.2.1:53" = .ok [documentationV4] := by decide +kernel
  have h := parseConfig_flag (envOf [("CERTBOT_DNS_CHAMP_DNS_ADDR", "[::1]:53")]) hparse
  refine ⟨_, h, (ownFamilies_iff h).2 ⟨fun addr _ => ?_, fun addr haddr => ?_⟩⟩
  · exact .inr ⟨documentationV4, by decide +kernel, rfl⟩
  · cases haddr

/-- Without the argument the first slot holds the IPv6 address, and no AAAA query is answered. -/
theorem not_ownFamilies_loopback : ∃ config,
    parseConfig smallStd (envOf [("CERTBOT_DNS_CHAMP_DNS_ADDR", "[::1]:53")]) [] = .ok config ∧
      config.dnsAddr4 = some loopbackV6 ∧ config.dnsAddr6 = none ∧
        config.serverIps = ⟨none, none⟩ ∧ ¬ config.OwnFamilies := by
  refine ⟨_, rfl, rfl, rfl, rfl, fun hown => ?_⟩
  exact Bool.noConfusion (hown.ipv4 loopbackV6 rfl)

/-! ## The variable and the flag -/

/-- The parts of the configuration that the addresses decide are the same. -/
structure Config.SameAddrs (config config' : Config) : Prop where
  dnsAddr4 : config.dnsAddr4 = config'.dnsAddr4
  dnsAddr6 : config.dnsAddr6 = config'.dnsAddr6
  requireV6 : config.requireV6 = config'.requireV6
  serverIps : config.serverIps = config'.serverIps

theorem Config.SameAddrs.withDefaults (std : Std) {c c' : Config} (h : c.SameAddrs c') :
    (c.withDefaults std).SameAddrs (c'.withDefaults std) := by
  unfold Config.withDefaults
  rw [h.dnsAddr4, h.dnsAddr6]
  split_ifs
  · exact ⟨rfl, rfl, rfl, h.serverIps⟩
  · exact h

theorem Config.SameAddrs.finish (std : Std) {c c' : Config} (h : c.SameAddrs c')
    (hips : c.serverIps = ⟨none, none⟩) : (c.finish std).SameAddrs (c'.finish std) := by
  obtain ⟨h4, h6, hv6, -⟩ := h.withDefaults std
  rw [finish_eq std hips, finish_eq std (h.serverIps ▸ hips)]
  refine ⟨h4, h6, hv6, ?_⟩
  simp only [h4, h6]

/-- Without an address the defaults are taken, and IPv6 is optional. -/
theorem Config.requireV6_finish (std : Std) {config : Config}
    (hips : config.serverIps = ⟨none, none⟩) (h4 : config.dnsAddr4 = none)
    (h6 : config.dnsAddr6 = none) : (config.finish std).requireV6 = false := by
  rw [finish_eq std hips]
  unfold withDefaults
  rw [if_pos ⟨h4, h6⟩]

theorem Config.finish_of_bound (std : Std) {config : Config}
    (hips : config.serverIps = ⟨none, none⟩)
    (h : config.dnsAddr4 ≠ none ∨ config.dnsAddr6 ≠ none) :
    (config.finish std).dnsAddr4 = config.dnsAddr4 ∧
      (config.finish std).requireV6 = config.requireV6 := by
  have hdefaults : config.withDefaults std = config := if_neg (not_and_or.2 h)
  rw [finish_eq std hips, hdefaults]
  exact ⟨rfl, rfl⟩

section Flag

variable {std : Std} {s : String} {addrs : List SocketAddr}

theorem not_mem_space {addr : SocketAddr} (h : parseSocketish std s = some addr) :
    ' ' ∉ s.toList := by
  intro hspace
  unfold parseSocketish at h
  rw [std.parseSocketAddr_space s hspace, std.parseIpAddr_space s hspace] at h
  cases h

theorem parseAddrs_ne_nil (h : parseAddrs std s = .ok addrs) : addrs ≠ [] := by
  unfold parseAddrs at h
  rcases hpush : pushAddrs std (splitSpaces s) [] with e | pushed <;>
    simp only [hpush, bind, Except.bind] at h
  · cases h
  · split_ifs at h with hnil <;> cases h <;> assumption

/-- A single address is accepted whatever network it is of. -/
theorem parseAddrs_single {addr : SocketAddr} (haddr : parseSocketish std s = some addr)
    (h : parseAddrs std s = .ok addrs) : addrs = [addr] := by
  have hsplit : splitSpaces s = [s] := by
    unfold splitSpaces
    rw [List.splitOn_eq_singleton (not_mem_space haddr), List.map_singleton, String.ofList_toList]
  unfold parseAddrs at h
  rw [hsplit] at h
  by_cases hempty : s = ""
  · simp [pushAddrs, hempty, bind, Except.bind] at h
  · simp only [pushAddrs, hempty, if_false, haddr, List.nil_append, bind, Except.bind] at h
    simpa [eq_comm] using h

theorem lastAddr_ne_none (h : addrs ≠ []) :
    lastAddr SocketAddr.isIpv4 addrs ≠ none ∨ lastAddr SocketAddr.isIpv6 addrs ≠ none := by
  obtain ⟨addr, haddr⟩ := List.exists_mem_of_ne_nil _ h
  by_contra hno
  rw [not_or, not_ne_iff, not_ne_iff, lastAddr_eq_none_iff, lastAddr_eq_none_iff] at hno
  have h4 := hno.1 addr haddr
  have h6 := hno.2 addr haddr
  cases addr
  · cases h4
  · cases h6

end Flag

/-- The variable, in a run without arguments, and the flag, in a run without the variable, settle
the addresses alike exactly when the text is one IPv4 address. -/
theorem sameAddrs_iff {std : Std} {s : String} {addrs : List SocketAddr}
    (h : parseAddrs std s = .ok addrs) {env env' : String → Option String}
    (hvar : env "CERTBOT_DNS_CHAMP_DNS_ADDR" = some s)
    (hvar' : env' "CERTBOT_DNS_CHAMP_DNS_ADDR" = none)
    (hvar6 : env "CERTBOT_DNS_CHAMP_DNS_ADDR_6" = none)
    (hvar6' : env' "CERTBOT_DNS_CHAMP_DNS_ADDR_6" = none) :
    ∃ config config', parseConfig std env [] = .ok config ∧
      parseConfig std env' ["--dns-addr", s] = .ok config' ∧
        (config.SameAddrs config' ↔
          ∃ addr, parseSocketish std s = some addr ∧ addr.isIpv4 = true) := by
  refine ⟨_, _, rfl, parseConfig_flag env' h, ?_⟩
  have henv4 : (Config.ofEnv std env).dnsAddr4 = parseSocketish std s := by
    simp [Config.ofEnv, hvar]
  have henv6 : (Config.ofEnv std env).dnsAddr6 = none := by simp [Config.ofEnv, hvar6]
  have hflag := updated_foldl addrs (Config.ofEnv std env')
  have hflag4 : (addrs.foldl setDnsAddr (Config.ofEnv std env')).dnsAddr4 =
      lastAddr SocketAddr.isIpv4 addrs := by
    rw [hflag.dnsAddr4]
    simp [Config.ofEnv, hvar']
  have hflag6 : (addrs.foldl setDnsAddr (Config.ofEnv std env')).dnsAddr6 =
      lastAddr SocketAddr.isIpv6 addrs := by
    rw [hflag.dnsAddr6]
    simp [Config.ofEnv, hvar6']
  have hbound := lastAddr_ne_none (parseAddrs_ne_nil h)
  rw [← hflag4, ← hflag6] at hbound
  obtain ⟨hfinish4, hfinishV6⟩ := Config.finish_of_bound std hflag.serverIps hbound
  rcases haddr : parseSocketish std s with _ | addr
  · -- the variable is ignored, and what follows are the defaults
    refine iff_of_false (fun hsame => ?_) (by simp)
    have hv6 := hsame.requireV6
    rw [Config.requireV6_finish std rfl (henv4.trans haddr) henv6, hfinishV6,
      hflag.requireV6] at hv6
    cases hv6
  · obtain rfl := parseAddrs_single haddr h
    rw [haddr] at henv4
    cases addr with
    | v4 ip port =>
      refine iff_of_true (Config.SameAddrs.finish std ⟨?_, ?_, ?_, ?_⟩ rfl) ⟨_, rfl, rfl⟩
      · exact henv4.trans hflag4.symm
      · exact henv6.trans hflag6.symm
      · exact hflag.requireV6.symm
      · exact hflag.serverIps.symm
    | v6 ip port flowinfo scopeId =>
      refine iff_of_false (fun hsame => ?_) ?_
      · have h4 := hsame.dnsAddr4
        rw [(Config.finish_of_bound std rfl (.inl (by simp [henv4]))).1, henv4, hfinish4,
          hflag4] at h4
        cases h4
      · rintro ⟨addr, hsome, hfamily⟩
        obtain rfl := Option.some.inj hsome
        cases hfamily

theorem sameAddrs_iff_documentationV4 :
    ∃ config config',
      parseConfig smallStd (envOf [("CERTBOT_DNS_CHAMP_DNS_ADDR", "192.0.2.1:53")]) [] =
        .ok config ∧
      parseConfig smallStd (envOf []) ["--dns-addr", "192.0.2.1:53"] = .ok config' ∧
      (config.SameAddrs config' ↔
        ∃ addr, parseSocketish smallStd "192.0.2.1:53" = some addr ∧ addr.isIpv4 = true) := by
  have hparse : parseAddrs smallStd "192.0.2.1:53" = .ok [documentationV4] := by decide +kernel
  exact sameAddrs_iff hparse rfl rfl rfl rfl

/-- Of two addresses the flag takes both, and the variable none. -/
theorem not_sameAddrs_pair :
    ∃ config config',
      parseConfig smallStd (envOf [("CERTBOT_DNS_CHAMP_DNS_ADDR", "192.0.2.1:53 [::1]:53")]) [] =
        .ok config ∧
      parseConfig smallStd (envOf []) ["--dns-addr", "192.0.2.1:53 [::1]:53"] = .ok config' ∧
      config.dnsAddr4 = some (.v4 0 53) ∧ config.dnsAddr6 = some (.v6 0 53 0 0) ∧
      config'.dnsAddr4 = some documentationV4 ∧ config'.dnsAddr6 = some loopbackV6 ∧
      ¬ config.SameAddrs config' := by
  have hparse : parseAddrs smallStd "192.0.2.1:53 [::1]:53" =
      .ok [documentationV4, loopbackV6] := by decide +kernel
  refine ⟨_, _, rfl, parseConfig_flag (envOf []) hparse, by decide +kernel, by decide +kernel,
    by decide +kernel, by decide +kernel, fun hsame => ?_⟩
  exact absurd hsame.requireV6 (by decide +kernel)

end AcmeChampion
