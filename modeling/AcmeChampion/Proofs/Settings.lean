import AcmeChampion.Proofs.Addresses

/-!
# What the arguments settle

The arguments are a list of `settings`, an option with its argument each.  A part of the
configuration that one option sets has the last argument of that option, or else what the
environment says (`last_parseArgs`), and whether and how reading the arguments fails does not depend
on the environment (`error_parseArgs_iff`).
-/

namespace AcmeChampion

variable {std : Std}

/-- The options among the arguments, each with the argument that follows it. -/
def settings (std : Std) : List String → List (ValueOption × String)
  | [] => []
  | arg :: args =>
    match Flag.of (std.toLowercase arg), args with
    | .value option, s :: args => (option, s) :: settings std args
    | .value _, [] => []
    | _, args => settings std args

/-- What the last argument of the option reads as. -/
def lastSetting {τ : Type} (std : Std) (args : List String) (option : ValueOption)
    (read : String → Option τ) : Option τ :=
  ((settings std args).filterMap fun setting =>
    if setting.1 = option then read setting.2 else none).getLast?

theorem getLast?_getD_cons {τ : Type} (a : Option τ) (as : List τ) (d : τ) :
    (a.toList ++ as).getLast?.getD d = as.getLast?.getD (a.getD d) := by
  rcases a with _ | a
  · rfl
  · rcases as.eq_nil_or_concat with rfl | ⟨as, b, rfl⟩
    · rfl
    · rw [List.concat_eq_append, ← List.append_assoc, List.getLast?_concat, List.getLast?_concat]
      rfl

/-- A part of the configuration that every option sets to what it makes of its argument, if
anything, ends as the last of these. -/
theorem last_parseArgs {τ : Type} {R : Config → τ} {value : ValueOption × String → Option τ}
    (hset : ∀ flag s option config config', setOption std flag s config option = .ok config' →
      R config' = (value (option, s)).getD (R config)) :
    ∀ {args : List String} {config config' : Config}, parseArgs std args config = .ok config' →
      R config' = ((settings std args).filterMap value).getLast?.getD (R config)
  | [], config, config', h => by
    cases h
    rfl
  | [arg], config, config', h => by
    unfold parseArgs at h
    unfold settings
    rcases hflag : Flag.of (std.toLowercase arg) with option | _ | _ <;> simp only [hflag] at h ⊢
    · cases h
    · cases h
    · exact last_parseArgs hset h
  | arg :: s :: args, config, config', h => by
    unfold parseArgs at h
    unfold settings
    rcases hflag : Flag.of (std.toLowercase arg) with option | _ | _ <;> simp only [hflag] at h ⊢
    · rcases hone : setOption std (std.toLowercase arg) s config option with e | config1 <;>
        simp only [hone] at h
      · cases h
      · have ih := last_parseArgs hset h
        rw [ih, hset _ _ _ _ _ hone, ← getLast?_getD_cons, List.filterMap_cons]
        rcases value (option, s) with _ | v <;> rfl
    · cases h
    · exact last_parseArgs hset h

/-- A part that one option sets has the last argument of that option. -/
theorem lastSetting_parseArgs {τ : Type} {R : Config → τ} {option : ValueOption}
    {read : String → Option τ}
    (hset : ∀ flag s o config config', setOption std flag s config o = .ok config' →
      R config' = (if o = option then read s else none).getD (R config))
    {args : List String} {config config' : Config} (h : parseArgs std args config = .ok config') :
    R config' = (lastSetting std args option read).getD (R config) :=
  last_parseArgs hset h

/-- Addresses set their slots only. -/
theorem foldl_setDnsAddr_settings : ∀ (addrs : List SocketAddr) (config : Config),
    (addrs.foldl setDnsAddr config).httpPort = config.httpPort ∧
      (addrs.foldl setDnsAddr config).loglevel = config.loglevel ∧
      (addrs.foldl setDnsAddr config).logformat = config.logformat ∧
      (addrs.foldl setDnsAddr config).username = config.username
  | [], config => ⟨rfl, rfl, rfl, rfl⟩
  | addr :: addrs, config => by
    have ih := foldl_setDnsAddr_settings addrs (setDnsAddr config addr)
    cases addr <;> exact ih

/-- What an option that is accepted sets. -/
theorem setOption_ok {flag s : String} {option : ValueOption} {config config' : Config}
    (h : setOption std flag s config option = .ok config') :
    config'.httpPort = (if option = .httpPort then parseU16 s else none).getD config.httpPort ∧
    config'.loglevel = (if option = .logLevel then std.parseLevel s else none).getD
      config.loglevel ∧
    config'.logformat = (if option = .logFormat then LogFormat.fromStr std s else none).getD
      config.logformat ∧
    config'.username = (if option = .username then some (some s) else none).getD
      config.username := by
  unfold setOption at h
  cases option with
  | httpPort =>
    rcases hport : parseU16 s with _ | port <;> simp only [hport] at h <;> cases h
    exact ⟨by simp, rfl, rfl, rfl⟩
  | dnsAddr =>
    rcases hparse : parseAddrs std s with (_ | _) | addrs <;> simp only [hparse] at h <;> cases h
    exact foldl_setDnsAddr_settings addrs config
  | logLevel =>
    rcases hlevel : std.parseLevel s with _ | level <;> simp only [hlevel] at h <;> cases h
    exact ⟨rfl, by simp, rfl, rfl⟩
  | logFormat =>
    rcases hformat : LogFormat.fromStr std s with _ | format <;> simp only [hformat] at h <;>
      cases h
    exact ⟨rfl, rfl, by simp, rfl⟩
  | username =>
    cases h
    exact ⟨rfl, rfl, rfl, rfl⟩

theorem lastSetting_some_some (args : List String) (option : ValueOption)
    (o : Option String) :
    (lastSetting std args option fun s => some (some s)).getD o =
      (lastSetting std args option some).or o := by
  have hmap : (lastSetting std args option fun s => some (some s)) =
      (lastSetting std args option some).map some := by
    unfold lastSetting
    rw [← List.getLast?_map, List.map_filterMap]
    congr 2
    funext setting
    split_ifs <;> rfl
  rw [hmap]
  cases lastSetting std args option some <;> rfl

/-! ## Errors -/

theorem error_setOption_iff {flag s : String} {option : ValueOption} {e : ConfigError}
    (config config' : Config) : setOption std flag s config option = .error e ↔
      setOption std flag s config' option = .error e := by
  unfold setOption
  cases option with
  | httpPort => cases parseU16 s <;> simp
  | dnsAddr => rcases parseAddrs std s with (_ | _) | _ <;> simp
  | logLevel => cases std.parseLevel s <;> simp
  | logFormat => cases LogFormat.fromStr std s <;> simp
  | username => simp

theorem error_parseArgs_iff {e : ConfigError} : ∀ {args : List String} (config config' : Config),
    parseArgs std args config = .error e ↔ parseArgs std args config' = .error e
  | [], config, config' => by simp [parseArgs]
  | [arg], config, config' => by
    unfold parseArgs
    rcases hflag : Flag.of (std.toLowercase arg) with option | _ | _ <;> simp only [hflag]
    exact error_parseArgs_iff config config'
  | arg :: s :: args, config, config' => by
    unfold parseArgs
    rcases hflag : Flag.of (std.toLowercase arg) with option | _ | _ <;> simp only [hflag]
    · have hone : ∀ e, _ ↔ _ := fun e =>
        @error_setOption_iff std (std.toLowercase arg) s option e config config'
      rcases hset : setOption std (std.toLowercase arg) s config option with e1 | config1 <;>
        rcases hset' : setOption std (std.toLowercase arg) s config' option with e2 | config2 <;>
        simp only [hset, hset'] at hone ⊢
      · rw [hone]
      · exact absurd ((hone e1).1 rfl) (by simp)
      · exact absurd ((hone e2).2 rfl) (by simp)
      · exact error_parseArgs_iff config1 config2
    · exact error_parseArgs_iff config config'

/-! ## The configuration -/

theorem parseConfig_eq (std : Std) (env : String → Option String) (args : List String) :
    parseConfig std env args =
      (parseArgs std args (Config.ofEnv std env)).map (Config.finish std) := by
  unfold parseConfig
  cases parseArgs std args (Config.ofEnv std env) <;> rfl

theorem parseConfig_error_iff {env : String → Option String} {args : List String}
    {e : ConfigError} : parseConfig std env args = .error e ↔
      parseArgs std args (Config.ofEnv std env) = .error e := by
  rw [parseConfig_eq]
  cases parseArgs std args (Config.ofEnv std env) <;> simp [Except.map]

/-- The defaults are of addresses only. -/
theorem withDefaults_settings (config : Config) :
    (config.withDefaults std).httpPort = config.httpPort ∧
      (config.withDefaults std).loglevel = config.loglevel ∧
      (config.withDefaults std).logformat = config.logformat ∧
      (config.withDefaults std).username = config.username := by
  unfold Config.withDefaults
  split_ifs <;> exact ⟨rfl, rfl, rfl, rfl⟩

/-- An accepted configuration has, of each option, the last argument if there is one, and else what
the variable of the environment says if it can be read, and else the default.  The addresses are two
slots, and the default addresses are for the case that neither is set: one that is set leaves the
other empty.  Whether the arguments are accepted, and with which error not, does not depend on the
environment. -/
theorem parseConfig_settings (std : Std) (env : String → Option String) (args : List String) :
    (∀ config, parseConfig std env args = .ok config →
      config.httpPort = ((lastSetting std args .httpPort parseU16).or
        ((env "CERTBOT_DNS_CHAMP_HTTP_PORT").bind parseU16)).getD 8053 ∧
      config.loglevel = ((lastSetting std args .logLevel std.parseLevel).or
        ((env "CERTBOT_DNS_CHAMP_LOG_LEVEL").bind std.parseLevel)).getD .info ∧
      config.logformat = ((lastSetting std args .logFormat (LogFormat.fromStr std)).or
        ((env "CERTBOT_DNS_CHAMP_LOG_FORMAT").bind (LogFormat.fromStr std))).getD
          (LogFormat.default std) ∧
      config.username = (lastSetting std args .username some).or
        (env "CERTBOT_DNS_CHAMP_USERNAME") ∧
      (config.dnsAddr4, config.dnsAddr6) =
        match (lastAddr SocketAddr.isIpv4 (argsAddrs std args)).or
            ((env "CERTBOT_DNS_CHAMP_DNS_ADDR").bind (parseSocketish std)),
          (lastAddr SocketAddr.isIpv6 (argsAddrs std args)).or
            ((env "CERTBOT_DNS_CHAMP_DNS_ADDR_6").bind (parseSocketish std)) with
        | none, none => (some (defaultAddrV4 std), some (defaultAddrV6 std))
        | addr4, addr6 => (addr4, addr6)) ∧
    ∀ env' e, parseConfig std env args = .error e ↔ parseConfig std env' args = .error e := by
  constructor
  · intro config h
    rw [parseConfig_eq] at h
    rcases hargs : parseArgs std args (Config.ofEnv std env) with e | c <;> rw [hargs] at h
    · cases h
    obtain rfl : c.finish std = config := Except.ok.inj h
    have hupdated := updated_parseArgs hargs
    have hport := lastSetting_parseArgs (fun flag s o c c' h => (setOption_ok h).1) hargs
    have hlevel := lastSetting_parseArgs (fun flag s o c c' h => (setOption_ok h).2.1) hargs
    have hformat := lastSetting_parseArgs (fun flag s o c c' h => (setOption_ok h).2.2.1) hargs
    have huser := @lastSetting_parseArgs std _ Config.username .username (fun s => some (some s))
      (fun flag s o c c' h => (setOption_ok h).2.2.2) _ _ _ hargs
    rw [lastSetting_some_some] at huser
    rw [Config.finish_eq std hupdated.serverIps]
    obtain ⟨hport', hlevel', hformat', huser'⟩ := @withDefaults_settings std c
    refine ⟨?_, ?_, ?_, huser'.trans huser, ?_⟩
    · rw [Option.getD_or]
      exact hport'.trans hport
    · rw [Option.getD_or]
      exact hlevel'.trans hlevel
    · rw [Option.getD_or]
      exact hformat'.trans hformat
    · have h4 := hupdated.dnsAddr4
      have h6 := hupdated.dnsAddr6
      simp only [Config.ofEnv] at h4 h6
      rw [← h4, ← h6]
      unfold Config.withDefaults
      rcases hc4 : c.dnsAddr4 with _ | addr4 <;> rcases hc6 : c.dnsAddr6 with _ | addr6 <;>
        simp [hc4, hc6]
  · intro env' e
    rw [parseConfig_error_iff, parseConfig_error_iff]
    exact error_parseArgs_iff _ _

end AcmeChampion
