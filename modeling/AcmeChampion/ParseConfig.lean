import AcmeChampion.Config
import AcmeChampion.Logger

/-!
# The configuration

`parseConfig` reads the environment, lets the arguments override it, and fills in the defaults.  The
parsers of the standard library and of the log levels are parameters.
-/

namespace AcmeChampion

open Logger (Level)

/-- What the code around `parseConfig` settles: parsers, letter case, and the kind of build. -/
structure Std where
  parseSocketAddr : String → Option SocketAddr
  parseIpAddr : String → Option IpAddr
  parseLevel : String → Option Level
  toLowercase : String → String
  debugAssertions : Bool
  parseSocketAddr_space : ∀ s, ' ' ∈ s.toList → parseSocketAddr s = none
  parseIpAddr_space : ∀ s, ' ' ∈ s.toList → parseIpAddr s = none
  toLowercase_lower : ∀ s, s.toList.all (fun c => c.toNat < 128 && !c.isUpper) → toLowercase s = s

/-- `u16::from_str`, and `u16::from_str_radix` with radix 10. -/
def parseU16 (s : String) : Option UInt16 :=
  let digits : List Char :=
    match s.toList with
    | '+' :: digits => digits
    | digits => digits
  let value := digits.foldl (fun value c => value * 10 + (c.toNat - '0'.toNat)) 0
  if digits ≠ [] ∧ digits.all Char.isDigit ∧ value < 2 ^ 16 then some (UInt16.ofNat value) else none

def LogFormat.fromStr (std : Std) (s : String) : Option LogFormat :=
  let s := std.toLowercase s
  if s = "pretty" then some .pretty
  else if s = "plain" then some .plain
  else none

def LogFormat.default (std : Std) : LogFormat := if std.debugAssertions then .pretty else .plain

structure Config where
  httpPort : UInt16
  dnsAddr4 : Option SocketAddr
  dnsAddr6 : Option SocketAddr
  requireV6 : Bool
  serverIps : ServerIps
  loglevel : Level
  logformat : LogFormat
  username : Option String
  deriving DecidableEq

inductive ConfigError
  | invalidNumber (s : String)
  | invalidAddr (s : String)
  | unsupportedAddrs (s : String)
  | missingArgument (flag : String)
  | unsupportedOption (s flag : String)
  | justPrintUsage
  deriving DecidableEq

/-! ## Lists of addresses -/

inductive InvalidDnsAddrs
  | invalidAddr (s : String)
  | unsupportedAddrs (s : String)
  deriving DecidableEq

section Parse

variable (std : Std)

def defaultDnsPort : UInt16 := if std.debugAssertions then 5053 else 53

/-- 127.0.0.1 or 0.0.0.0 -/
def defaultAddrV4 : SocketAddr :=
  .new (.v4 (if std.debugAssertions then 0x7F000001 else 0)) (defaultDnsPort std)

/-- ::1 or :: -/
def defaultAddrV6 : SocketAddr :=
  .new (.v6 (if std.debugAssertions then 1 else 0)) (defaultDnsPort std)

def parseSocketish (maybeAddr : String) : Option SocketAddr :=
  match std.parseSocketAddr maybeAddr with
  | some addr => some addr
  | none => (std.parseIpAddr maybeAddr).map fun ip => .new ip (defaultDnsPort std)

/-- `s.split(' ')` -/
def splitSpaces (s : String) : List String := (s.toList.splitOn ' ').map String.ofList

/-- The loop over the pieces of the list; `addrs` are the addresses found so far. -/
def pushAddrs : List String → List SocketAddr → Except InvalidDnsAddrs (List SocketAddr)
  | [], addrs => .ok addrs
  | maybeAddr :: rest, addrs =>
    if maybeAddr = "" then pushAddrs rest addrs
    else
      match parseSocketish std maybeAddr with
      | some addr => pushAddrs rest (addrs ++ [addr])
      | none => .error (.invalidAddr maybeAddr)

def retained (addr : SocketAddr) : Bool :=
  match addr.ip with
  | .v4 ip => !ip.isPrivate
  | .v6 _ => true

def parseAddrs (s : String) : Except InvalidDnsAddrs (List SocketAddr) := do
  let addrs ← pushAddrs std (splitSpaces s) []
  let addrs := if addrs.length > 1 then addrs.filter retained else addrs
  if addrs = [] then .error (.unsupportedAddrs s) else .ok addrs

/-! ## Arguments -/

/-- The options that an argument follows. -/
inductive ValueOption
  | httpPort
  | dnsAddr
  | logLevel
  | logFormat
  | username
  deriving DecidableEq

inductive Flag
  | value (option : ValueOption)
  | help
  | other
  deriving DecidableEq

def Flag.of (flag : String) : Flag :=
  if flag = "--http-port" then .value .httpPort
  else if flag = "--dns-addr" then .value .dnsAddr
  else if flag = "-l" ∨ flag = "--log-level" then .value .logLevel
  else if flag = "--log-format" then .value .logFormat
  else if flag = "-u" ∨ flag = "--username" then .value .username
  else if flag = "-h" ∨ flag = "--help" then .help
  else .other

def setDnsAddr (config : Config) (addr : SocketAddr) : Config :=
  if addr.isIpv4 then { config with dnsAddr4 := some addr }
  else if addr.isIpv6 then { config with dnsAddr6 := some addr }
  else config

/-- What an option makes of the argument `s` that follows its flag. -/
def setOption (flag s : String) (config : Config) : ValueOption → Except ConfigError Config
  | .httpPort =>
    match parseU16 s with
    | some port => .ok { config with httpPort := port }
    | none => .error (.invalidNumber s)
  | .dnsAddr =>
    match parseAddrs std s with
    | .ok addrs => .ok (addrs.foldl setDnsAddr config)
    | .error (.invalidAddr addr) => .error (.invalidAddr addr)
    | .error (.unsupportedAddrs s) => .error (.unsupportedAddrs s)
  | .logLevel =>
    match std.parseLevel s with
    | some level => .ok { config with loglevel := level }
    | none => .error (.unsupportedOption s flag)
  | .logFormat =>
    match LogFormat.fromStr std s with
    | some format => .ok { config with logformat := format }
    | none => .error (.unsupportedOption s flag)
  | .username => .ok { config with username := some s }

/-- The loop over the arguments. -/
def parseArgs : List String → Config → Except ConfigError Config
  | [], config => .ok config
  | arg :: args, config =>
    let flag := std.toLowercase arg
    match Flag.of flag with
    | .value option =>
      match args with
      | [] => .error (.missingArgument flag)
      | s :: args =>
        match setOption std flag s config option with
        | .ok config => parseArgs args config
        | .error e => .error e
    | .help => .error .justPrintUsage
    | .other => parseArgs args config

/-! ## The whole configuration -/

/-- What the environment settles; `env` is `std::env::var`. -/
def Config.ofEnv (env : String → Option String) : Config where
  httpPort := ((env "CERTBOT_DNS_CHAMP_HTTP_PORT").bind parseU16).getD 8053
  dnsAddr4 := (env "CERTBOT_DNS_CHAMP_DNS_ADDR").bind (parseSocketish std)
  dnsAddr6 := (env "CERTBOT_DNS_CHAMP_DNS_ADDR_6").bind (parseSocketish std)
  requireV6 := true
  serverIps := { v4 := none, v6 := none }
  loglevel := ((env "CERTBOT_DNS_CHAMP_LOG_LEVEL").bind std.parseLevel).getD .info
  logformat := ((env "CERTBOT_DNS_CHAMP_LOG_FORMAT").bind (LogFormat.fromStr std)).getD
    (LogFormat.default std)
  username := env "CERTBOT_DNS_CHAMP_USERNAME"

def Config.withDefaults (config : Config) : Config :=
  if config.dnsAddr4 = none ∧ config.dnsAddr6 = none then
    { config with
      dnsAddr4 := some (defaultAddrV4 std)
      dnsAddr6 := some (defaultAddrV6 std)
      requireV6 := false }
  else config

end Parse

namespace Config

def withServerIpV4 (config : Config) : Config :=
  match config.dnsAddr4.map SocketAddr.ip with
  | some (.v4 ip) =>
    if (IpAddr.v4 ip).isUnspecified then config
    else { config with serverIps := { config.serverIps with v4 := some ip } }
  | _ => config

def withServerIpV6 (config : Config) : Config :=
  match config.dnsAddr6.map SocketAddr.ip with
  | some (.v6 ip) =>
    if (IpAddr.v6 ip).isUnspecified then config
    else { config with serverIps := { config.serverIps with v6 := some ip } }
  | _ => config

/-- What follows the loop over the arguments. -/
def finish (std : Std) (config : Config) : Config :=
  ((config.withDefaults std).withServerIpV4).withServerIpV6

end Config

/-- `args` are the arguments behind the program's name. -/
def parseConfig (std : Std) (env : String → Option String) (args : List String) :
    Except ConfigError Config := do
  let config ← parseArgs std args (Config.ofEnv std env)
  return config.finish std

end AcmeChampion
