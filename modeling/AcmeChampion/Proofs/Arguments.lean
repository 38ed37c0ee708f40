import AcmeChampion.Proofs.Settings

/-!
# Which arguments are accepted

The arguments are read from the left, in `Item`s: an option with its argument, or an argument that
is passed over.  They are accepted exactly when they are items that are right, and otherwise are
refused at the first that is not, for what is wrong with it (`parseConfig_arguments`).
-/

namespace AcmeChampion

variable {std : Std}

/-! ## Lists of addresses -/

variable (std) in
/-- The piece is an address, or nothing between two blanks. -/
def Spelled (piece : String) : Prop := piece = "" ∨ ∃ addr, parseSocketish std piece = some addr

variable (std) in
/-- The addresses that a list spells. -/
def spelledAddrs (pieces : List String) : List SocketAddr :=
  (pieces.filter (· ≠ "")).filterMap (parseSocketish std)

theorem pushAddrs_of_spelled : ∀ {before : List String}, (∀ piece ∈ before, Spelled std piece) →
    ∀ (rest : List String) (addrs : List SocketAddr),
      pushAddrs std (before ++ rest) addrs = pushAddrs std rest (addrs ++ spelledAddrs std before)
  | [], _, rest, addrs => by simp [spelledAddrs]
  | piece :: before, h, rest, addrs => by
    have ih := @pushAddrs_of_spelled before fun p hp => h p (by simp [hp])
    rw [List.cons_append, pushAddrs]
    split_ifs with hempty
    · rw [ih, hempty]
      rfl
    · obtain ⟨addr, haddr⟩ := (h piece (by simp)).resolve_left hempty
      have hspelled : spelledAddrs std (piece :: before) = addr :: spelledAddrs std before := by
        simp [spelledAddrs, hempty, haddr]
      simp only [haddr, hspelled]
      rw [ih, List.append_assoc]
      rfl

/-- Each piece is spelled, or there is a first that is not. -/
theorem spelled_or_first : ∀ pieces : List String, (∀ piece ∈ pieces, Spelled std piece) ∨
    ∃ before piece after, pieces = before ++ piece :: after ∧
      (∀ p ∈ before, Spelled std p) ∧ piece ≠ "" ∧ parseSocketish std piece = none
  | [] => .inl (by simp)
  | piece :: pieces => by
    by_cases hpiece : Spelled std piece
    · rcases spelled_or_first pieces with h | ⟨before, p, after, rfl, hbefore, hp⟩
      · exact .inl (List.forall_mem_cons.2 ⟨hpiece, h⟩)
      · exact .inr ⟨piece :: before, p, after, rfl, List.forall_mem_cons.2 ⟨hpiece, hbefore⟩, hp⟩
    · obtain ⟨hempty, hnone⟩ := not_or.1 hpiece
      exact .inr ⟨[], piece, pieces, rfl, by simp, hempty, Option.eq_none_iff_forall_ne_some.2
        fun addr h => hnone ⟨addr, h⟩⟩

theorem pushAddrs_ok {pieces : List String} (h : ∀ piece ∈ pieces, Spelled std piece) :
    pushAddrs std pieces [] = .ok (spelledAddrs std pieces) := by
  have hall := pushAddrs_of_spelled h [] []
  rwa [List.append_nil, List.nil_append] at hall

theorem pushAddrs_error {before after : List String} {piece : String}
    (h : ∀ p ∈ before, Spelled std p) (hempty : piece ≠ "")
    (hnone : parseSocketish std piece = none) :
    pushAddrs std (before ++ piece :: after) [] = .error (.invalidAddr piece) := by
  rw [pushAddrs_of_spelled h, pushAddrs, if_neg hempty]
  simp only [hnone]

variable (std) in
/-- One address is taken as it is; of several there has to be one that is not private. -/
def Public (s : String) : Prop :=
  (spelledAddrs std (splitSpaces s)).length = 1 ∨
    ∃ addr ∈ spelledAddrs std (splitSpaces s), retained addr = true

theorem parseAddrs_of_spelled {s : String} (h : ∀ piece ∈ splitSpaces s, Spelled std piece) :
    (Public std s → ∃ addrs, parseAddrs std s = .ok addrs) ∧
      (¬ Public std s → parseAddrs std s = .error (.unsupportedAddrs s)) := by
  unfold parseAddrs Public
  rw [pushAddrs_ok h]
  simp only [bind, Except.bind]
  generalize spelledAddrs std (splitSpaces s) = addrs
  constructor
  · intro hpublic
    refine ⟨_, if_neg fun hnil => ?_⟩
    split_ifs at hnil with hlen
    · obtain ⟨addr, hmem, hretained⟩ := hpublic.resolve_left (by omega)
      exact absurd hretained (List.filter_eq_nil_iff.1 hnil addr hmem)
    · rw [hnil] at hpublic
      rcases hpublic with hone | ⟨addr, hmem, -⟩
      · cases hone
      · cases hmem
  · intro hprivate
    obtain ⟨hone, hnone⟩ := not_or.1 hprivate
    refine if_pos ?_
    split_ifs with hlen
    · exact List.filter_eq_nil_iff.2 fun addr hmem hretained => hnone ⟨addr, hmem, hretained⟩
    · exact List.length_eq_zero_iff.1 (by omega)

/-! ## One option -/

/-- The option can have the argument. -/
def Readable (std : Std) : ValueOption → String → Prop
  | .httpPort, s => ∃ port, parseU16 s = some port
  | .dnsAddr, s => (∀ piece ∈ splitSpaces s, Spelled std piece) ∧ Public std s
  | .logLevel, s => ∃ level, std.parseLevel s = some level
  | .logFormat, s => ∃ format, LogFormat.fromStr std s = some format
  | .username, _ => True

/-- What is wrong with the argument of an option. -/
inductive Refused (std : Std) (flag s : String) : ValueOption → ConfigError → Prop
  | httpPort (h : parseU16 s = none) : Refused std flag s .httpPort (.invalidNumber s)
  | addr {before after : List String} {piece : String}
      (hsplit : splitSpaces s = before ++ piece :: after) (hbefore : ∀ p ∈ before, Spelled std p)
      (hempty : piece ≠ "") (hnone : parseSocketish std piece = none) :
      Refused std flag s .dnsAddr (.invalidAddr piece)
  | addrs (hall : ∀ piece ∈ splitSpaces s, Spelled std piece) (hprivate : ¬ Public std s) :
      Refused std flag s .dnsAddr (.unsupportedAddrs s)
  | logLevel (h : std.parseLevel s = none) :
      Refused std flag s .logLevel (.unsupportedOption s flag)
  | logFormat (h : LogFormat.fromStr std s = none) :
      Refused std flag s .logFormat (.unsupportedOption s flag)

theorem readable_or_refused (flag : String) (option : ValueOption) (s : String) :
    Readable std option s ∨ ∃ e, Refused std flag s option e := by
  cases option with
  | httpPort =>
    rcases h : parseU16 s with _ | port
    · exact .inr ⟨_, .httpPort h⟩
    · exact .inl ⟨port, h⟩
  | dnsAddr =>
    rcases @spelled_or_first std (splitSpaces s) with
      hall | ⟨_, _, _, hsplit, hbefore, hempty, hnone⟩
    · by_cases hpublic : Public std s
      · exact .inl ⟨hall, hpublic⟩
      · exact .inr ⟨_, .addrs hall hpublic⟩
    · exact .inr ⟨_, .addr hsplit hbefore hempty hnone⟩
  | logLevel =>
    rcases h : std.parseLevel s with _ | level
    · exact .inr ⟨_, .logLevel h⟩
    · exact .inl ⟨level, h⟩
  | logFormat =>
    rcases h : LogFormat.fromStr std s with _ | format
    · exact .inr ⟨_, .logFormat h⟩
    · exact .inl ⟨format, h⟩
  | username => exact .inl trivial

theorem setOption_of_readable {flag s : String} {option : ValueOption} (h : Readable std option s)
    (config : Config) : ∃ config', setOption std flag s config option = .ok config' := by
  cases option with
  | httpPort =>
    obtain ⟨port, hport⟩ := h
    simp only [setOption, hport]
    exact ⟨_, rfl⟩
  | dnsAddr =>
    obtain ⟨addrs, haddrs⟩ := (parseAddrs_of_spelled h.1).1 h.2
    simp only [setOption, haddrs]
    exact ⟨_, rfl⟩
  | logLevel =>
    obtain ⟨level, hlevel⟩ := h
    simp only [setOption, hlevel]
    exact ⟨_, rfl⟩
  | logFormat =>
    obtain ⟨format, hformat⟩ := h
    simp only [setOption, hformat]
    exact ⟨_, rfl⟩
  | username => exact ⟨_, rfl⟩

theorem setOption_of_refused {flag s : String} {option : ValueOption} {e : ConfigError}
    (h : Refused std flag s option e) (config : Config) :
    setOption std flag s config option = .error e := by
  cases h with
  | httpPort h => simp only [setOption, h]
  | @addr before after piece hsplit hbefore hempty hnone =>
    have hpush := @pushAddrs_error std before after piece hbefore hempty hnone
    simp only [setOption, parseAddrs, hsplit, hpush, bind, Except.bind]
  | addrs hall hprivate => simp only [setOption, (parseAddrs_of_spelled hall).2 hprivate]
  | logLevel h => simp only [setOption, h]
  | logFormat h => simp only [setOption, h]

/-! ## The arguments -/

inductive Item
  | setting (arg : String) (option : ValueOption) (s : String)
  | passed (arg : String)

def Item.words : Item → List String
  | .setting arg _ s => [arg, s]
  | .passed arg => [arg]

/-- Flags are read in lower case. -/
def Item.Right (std : Std) : Item → Prop
  | .setting arg option s => Flag.of (std.toLowercase arg) = .value option ∧ Readable std option s
  | .passed arg => Flag.of (std.toLowercase arg) = .other

/-- What is wrong with the arguments that are left. -/
inductive Fault (std : Std) : List String → ConfigError → Prop
  | missing {arg : String} {option : ValueOption}
      (hflag : Flag.of (std.toLowercase arg) = .value option) :
      Fault std [arg] (.missingArgument (std.toLowercase arg))
  | refused {arg s : String} {args : List String} {option : ValueOption} {e : ConfigError}
      (hflag : Flag.of (std.toLowercase arg) = .value option)
      (h : Refused std (std.toLowercase arg) s option e) : Fault std (arg :: s :: args) e
  | help {arg : String} {args : List String} (hflag : Flag.of (std.toLowercase arg) = .help) :
      Fault std (arg :: args) .justPrintUsage

/-- The arguments are so many items that are right, with these left. -/
def Splits (std : Std) (args rest : List String) : Prop :=
  ∃ items : List Item, args = items.flatMap Item.words ++ rest ∧ ∀ item ∈ items, item.Right std

theorem Splits.cons {args rest : List String} {item : Item} (hitem : item.Right std)
    (h : Splits std args rest) : Splits std (item.words ++ args) rest := by
  obtain ⟨items, rfl, hitems⟩ := h
  exact ⟨item :: items, by simp, List.forall_mem_cons.2 ⟨hitem, hitems⟩⟩

/-- There is nothing left, or what is left is wrong. -/
theorem splits_or_fault : ∀ args : List String,
    Splits std args [] ∨ ∃ rest e, Splits std args rest ∧ Fault std rest e
  | [] => .inl ⟨[], rfl, by simp⟩
  | arg :: args => by
    rcases hflag : Flag.of (std.toLowercase arg) with option | _ | _
    · rcases args with _ | ⟨s, args⟩
      · exact .inr ⟨_, _, ⟨[], rfl, by simp⟩, .missing hflag⟩
      · rcases @readable_or_refused std (std.toLowercase arg) option s with hs | ⟨e, he⟩
        · have hitem : (Item.setting arg option s).Right std := ⟨hflag, hs⟩
          rcases splits_or_fault args with h | ⟨rest, e, h, hfault⟩
          · exact .inl (h.cons hitem)
          · exact .inr ⟨rest, e, h.cons hitem, hfault⟩
        · exact .inr ⟨_, _, ⟨[], rfl, by simp⟩, .refused hflag he⟩
    · exact .inr ⟨_, _, ⟨[], rfl, by simp⟩, .help hflag⟩
    · have hitem : (Item.passed arg).Right std := hflag
      rcases splits_or_fault args with h | ⟨rest, e, h, hfault⟩
      · exact .inl (h.cons hitem)
      · exact .inr ⟨rest, e, h.cons hitem, hfault⟩

/-- Items that are right are read. -/
theorem parseArgs_of_splits {args rest : List String} (h : Splits std args rest)
    (config : Config) : ∃ config', parseArgs std args config = parseArgs std rest config' := by
  obtain ⟨items, rfl, hitems⟩ := h
  induction items generalizing config with
  | nil => exact ⟨config, rfl⟩
  | cons item items ih =>
    obtain ⟨hitem, hrest⟩ := List.forall_mem_cons.1 hitems
    rw [List.flatMap_cons, List.append_assoc]
    cases item with
    | setting arg option s =>
      obtain ⟨hflag, hs⟩ := hitem
      obtain ⟨config1, hone⟩ := @setOption_of_readable std (std.toLowercase arg) s option hs config
      obtain ⟨config', htail⟩ := ih config1 hrest
      refine ⟨config', ?_⟩
      rw [← htail, Item.words, List.cons_append, List.cons_append, parseArgs]
      simp only [hflag, hone, List.nil_append]
    | passed arg =>
      obtain ⟨config', htail⟩ := ih config hrest
      refine ⟨config', ?_⟩
      have hflag : Flag.of (std.toLowercase arg) = .other := hitem
      rw [← htail, Item.words, List.cons_append, parseArgs]
      simp only [hflag, List.nil_append]

theorem parseArgs_of_fault {rest : List String} {e : ConfigError} (h : Fault std rest e)
    (config : Config) : parseArgs std rest config = .error e := by
  cases h with
  | missing hflag => simp only [parseArgs, hflag]
  | refused hflag h => simp only [parseArgs, hflag, setOption_of_refused h]
  | help hflag => simp only [parseArgs, hflag]

/-- The arguments are accepted exactly when they are items that are right.  They are refused with an
error exactly when it is what is wrong with those that are left behind items that are right. -/
theorem parseConfig_arguments (std : Std) (env : String → Option String) (args : List String) :
    ((∃ config, parseConfig std env args = .ok config) ↔ Splits std args []) ∧
      ∀ e, parseConfig std env args = .error e ↔
        ∃ rest, Splits std args rest ∧ Fault std rest e := by
  have hok : Splits std args [] → ∃ config, parseConfig std env args = .ok config := by
    intro h
    obtain ⟨config, hargs⟩ := parseArgs_of_splits h (Config.ofEnv std env)
    rw [parseConfig_eq, hargs]
    exact ⟨config.finish std, rfl⟩
  have herror : ∀ {rest e}, Splits std args rest → Fault std rest e →
      parseConfig std env args = .error e := by
    intro rest e h hfault
    obtain ⟨config, hargs⟩ := parseArgs_of_splits h (Config.ofEnv std env)
    rw [parseConfig_error_iff, hargs]
    exact parseArgs_of_fault hfault config
  refine ⟨⟨fun ⟨config, hconfig⟩ => ?_, hok⟩, fun e => ⟨fun he => ?_, ?_⟩⟩
  · rcases splits_or_fault args with h | ⟨rest, e, h, hfault⟩
    · exact h
    · rw [herror h hfault] at hconfig
      cases hconfig
  · rcases splits_or_fault args with h | ⟨rest, e', h, hfault⟩
    · obtain ⟨config, hconfig⟩ := hok h
      rw [hconfig] at he
      cases he
    · rw [herror h hfault] at he
      obtain rfl : e' = e := Except.error.inj he
      exact ⟨rest, h, hfault⟩
  · rintro ⟨rest, h, hfault⟩
    exact herror h hfault

end AcmeChampion
