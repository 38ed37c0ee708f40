import AcmeChampion.Lib.Effects
import AcmeChampion.Proofs.Addresses
import AcmeChampion.Proofs.Server
import AcmeChampion.Startup

/-!
# What startup has done when the loop is entered

Whatever comes of startup, it asks for everything but the change of user as the user that it started
as, and for that last (`along_start`).  When the loop is entered it has asked for just what the
configuration says, the process is the configured user if it could become one (`main_user`), and
there is a DNS socket for each slot with an address (`main_bound`).
-/

namespace AcmeChampion

open Effects

namespace Startup

/-! ## What is asked -/

/-- The process has asked for more, as the user that it is, and stays that user. -/
def AsUser (p p' : Process) : Prop :=
  p'.euid = p.euid ∧ ∃ actions : List Action, (∀ uid, .setuid uid ∉ actions) ∧
    p'.asked = p.asked ++ actions.map (p.euid, ·)

instance : IsPreorder Process AsUser where
  refl p := ⟨rfl, [], by simp, by simp⟩
  trans p p' p'' h h' := by
    obtain ⟨heuid, actions, hnot, hasked⟩ := h
    obtain ⟨heuid', actions', hnot', hasked'⟩ := h'
    refine ⟨heuid'.trans heuid, actions ++ actions', fun uid => ?_, ?_⟩
    · simp only [List.mem_append, not_or]
      exact ⟨hnot uid, hnot' uid⟩
    · rw [hasked', hasked, heuid, List.map_append, List.append_assoc]

theorem along_ask {action : Action} (h : ∀ uid, action ≠ .setuid uid) : Along AsUser (ask action) :=
  Along.modify fun p => ⟨rfl, [action], by simpa using fun uid => Ne.symm (h uid), by simp⟩

theorem along_raising {α : Type} (wrap : IoError → StartError) (outcome : Except IoError α) :
    Along AsUser (raising wrap outcome) := by
  rcases outcome with e | a
  · exact Along.throw _
  · exact Along.pure a

variable (system : System)

theorem along_bindTcpListener (port : UInt16) : Along AsUser (bindTcpListener system port) :=
  (along_ask (by simp)).bind fun _ => along_raising _ _

theorem along_bindUdpSocket (addr : Option SocketAddr) (required : Bool) :
    Along AsUser (bindUdpSocket system addr required) := by
  rcases addr with _ | addr
  · exact Along.pure none
  · refine Along.get_bind fun p => ?_
    refine (along_ask (by simp)).bind (fun _ => ?_) p
    rcases system.bindUdp p.asked addr with e | sends
    · cases required
      · exact Along.pure none
      · exact Along.throw _
    · exact Along.pure (some sends)

theorem along_createPoll : Along AsUser (createPoll system) :=
  (along_ask (by simp)).bind fun _ => along_raising _ _

theorem along_register (token : Token) (message : String) :
    Along AsUser (register system token message) :=
  (along_ask (by simp)).bind fun _ => along_raising _ _

theorem along_registerUdp (token : Token) (socket : Option (List (Except IoError Unit))) :
    Along AsUser (registerUdp system token socket) := by
  unfold registerUdp
  split_ifs
  · exact along_register system token _
  · exact Along.pure ()

/-- The process has asked for more as the user that it is, and then perhaps to become another. -/
def ThenUser (p p' : Process) : Prop :=
  AsUser p p' ∨ ∃ p1 uid, AsUser p p1 ∧ p1.euid = 0 ∧ p'.asked = p1.asked ++ [(0, .setuid uid)]

theorem along_bind {α β : Type} {x : Start α} {f : α → Start β} (hx : Along AsUser x)
    (hf : ∀ a, Along ThenUser (f a)) : Along ThenUser (x >>= f) := by
  refine hx.bind_of (fun _ _ => .inl) (fun p p1 p2 h h' => ?_) hf
  rcases h' with h' | ⟨p3, uid, h', hroot, hasked⟩
  · exact .inl (trans_of AsUser h h')
  · exact .inr ⟨p3, uid, trans_of AsUser h h', hroot, hasked⟩

theorem along_setUser (username : String) : Along ThenUser (setUser system username) := by
  refine Along.get_bind fun p => ?_
  by_cases hroot : p.euid = 0
  swap
  · rw [if_pos hroot]
    exact .inl (refl_of AsUser p)
  rw [if_neg (not_not.2 hroot)]
  split_ifs
  · exact .inl (refl_of AsUser p)
  rcases system.getpwnam username with _ | uid
  · exact .inl (refl_of AsUser p)
  refine .inr ⟨p, uid, refl_of AsUser p, hroot, ?_⟩
  rw [← hroot]
  rcases hsetuid : system.setuid uid with e | ⟨⟩
  · simp only [hsetuid]
    rfl
  · simp only [hsetuid]
    rfl

theorem along_start (config : Config) : Along ThenUser (start system config) := by
  unfold start
  refine along_bind (along_bindTcpListener system _) fun _ => ?_
  refine along_bind (along_bindUdpSocket system _ _) fun dnsSocket4 => ?_
  refine along_bind (along_bindUdpSocket system _ _) fun dnsSocket6 => ?_
  refine along_bind (along_createPoll system) fun _ => ?_
  refine along_bind (along_register system _ _) fun _ => ?_
  refine along_bind (along_registerUdp system _ _) fun _ => ?_
  refine along_bind (along_registerUdp system _ _) fun _ => ?_
  rcases config.username with _ | username
  · exact fun p => .inl (refl_of AsUser p)
  · intro p
    have hleft := along_setUser system username p
    rw [EStateM.run_bind]
    rcases hrun : (setUser system username).run p with ⟨a, p1⟩ | ⟨e, p1⟩ <;> rw [hrun] at hleft
    · exact hleft
    · exact hleft

/-! ## What a start that returns has done -/

section

variable {system}

theorem ask_ok {action : Action} {p p' : Process} (h : (ask action).run p = .ok () p') :
    p' = ⟨p.euid, p.asked ++ [(p.euid, action)]⟩ := (EStateM.Result.ok.inj h).2.symm

theorem raising_ok {α : Type} {wrap : IoError → StartError} {outcome : Except IoError α}
    {p p' : Process} {a : α} (h : (raising wrap outcome).run p = .ok a p') :
    outcome = .ok a ∧ p' = p := by
  rcases outcome with e | b
  · cases h
  · obtain ⟨rfl, rfl⟩ := EStateM.Result.ok.inj h
    exact ⟨rfl, rfl⟩

theorem bindTcpListener_ok {port : UInt16} {p p' : Process}
    (h : (bindTcpListener system port).run p = .ok () p') :
    p' = ⟨p.euid, p.asked ++ [(p.euid, .bindTcp (.v4 0x7F000001 port))]⟩ := by
  obtain ⟨_, p1, hask, hraise⟩ := run_bind_ok_iff.1 h
  rw [(raising_ok hraise).2, ask_ok hask]

theorem createPoll_ok {p p' : Process} (h : (createPoll system).run p = .ok () p') :
    p' = ⟨p.euid, p.asked ++ [(p.euid, .createPoll)]⟩ := by
  obtain ⟨_, p1, hask, hraise⟩ := run_bind_ok_iff.1 h
  rw [(raising_ok hraise).2, ask_ok hask]

theorem register_ok {token : Token} {message : String} {p p' : Process}
    (h : (register system token message).run p = .ok () p') :
    p' = ⟨p.euid, p.asked ++ [(p.euid, .register token)]⟩ := by
  obtain ⟨_, p1, hask, hraise⟩ := run_bind_ok_iff.1 h
  rw [(raising_ok hraise).2, ask_ok hask]

theorem registerUdp_ok {token : Token} {socket : Option (List (Except IoError Unit))}
    {p p' : Process} (h : (registerUdp system token socket).run p = .ok () p') :
    p' = ⟨p.euid, p.asked ++
      (if socket.isSome then [.register token] else []).map (p.euid, ·)⟩ := by
  unfold registerUdp at h
  split_ifs at h ⊢
  · exact register_ok h
  · rw [← (EStateM.Result.ok.inj h).2]
    simp

/-- A socket is bound to each address, unless it need not be and could not. -/
theorem bindUdpSocket_ok {addr : Option SocketAddr} {required : Bool} {p p' : Process}
    {socket : Option (List (Except IoError Unit))}
    (h : (bindUdpSocket system addr required).run p = .ok socket p') :
    p' = ⟨p.euid, p.asked ++ (addr.toList.map .bindUdp).map (p.euid, ·)⟩ ∧
      (socket.isSome = addr.isSome ∨ required = false ∧ socket = none) := by
  rcases addr with _ | addr
  · obtain ⟨rfl, rfl⟩ := EStateM.Result.ok.inj h
    exact ⟨by simp, .inl rfl⟩
  · unfold bindUdpSocket at h
    obtain ⟨_, _, hget, h⟩ := run_bind_ok_iff.1 h
    obtain ⟨rfl, rfl⟩ := EStateM.Result.ok.inj hget
    obtain ⟨_, p1, hask, hrest⟩ := run_bind_ok_iff.1 h
    rw [ask_ok hask] at hrest
    rcases hsocket : system.bindUdp p.asked addr with e | sends
    · rw [hsocket] at hrest
      cases required
      · obtain ⟨rfl, rfl⟩ := EStateM.Result.ok.inj hrest
        exact ⟨rfl, .inr ⟨rfl, rfl⟩⟩
      · cases hrest
    · rw [hsocket] at hrest
      obtain ⟨rfl, rfl⟩ := EStateM.Result.ok.inj hrest
      exact ⟨rfl, .inl rfl⟩

/-- The superuser's process becomes the user's, and another stays what it is. -/
theorem setUser_ok {username : String} {p p' : Process}
    (h : (setUser system username).run p = .ok () p') :
    p.euid ≠ 0 ∧ p' = p ∨ p.euid = 0 ∧ ∃ uid, system.getpwnam username = some uid ∧
      system.setuid uid = .ok () ∧ p' = ⟨uid, p.asked ++ [(0, .setuid uid)]⟩ := by
  obtain ⟨q, q', hget, h⟩ := run_bind_ok_iff.1 h
  obtain ⟨rfl, rfl⟩ := EStateM.Result.ok.inj hget
  by_cases hroot : p.euid = 0
  swap
  · rw [if_pos hroot] at h
    exact .inl ⟨hroot, (EStateM.Result.ok.inj h).2.symm⟩
  rw [if_neg (not_not.2 hroot)] at h
  split_ifs at h
  · cases h
  rcases huid : system.getpwnam username with _ | uid
  · simp only [huid] at h
    cases h
  simp only [huid] at h
  obtain ⟨_, p1, hask, hrest⟩ := run_bind_ok_iff.1 h
  obtain ⟨_, p2, hraise, hmodify⟩ := run_bind_ok_iff.1 hrest
  obtain ⟨hsetuid, hp2⟩ := raising_ok hraise
  refine .inr ⟨hroot, uid, rfl, hsetuid, ?_⟩
  rw [← (EStateM.Result.ok.inj hmodify).2, hp2, ask_ok hask, hroot]

/-- What startup asks for, in order, when nothing that is required fails. -/
def actions (config : Config) (bound6 : Bool) : List Action :=
  .bindTcp (.v4 0x7F000001 config.httpPort) :: config.dnsAddr4.toList.map .bindUdp ++
    config.dnsAddr6.toList.map .bindUdp ++ [.createPoll, .register .tcpListener] ++
    (if config.dnsAddr4.isSome then [.register .udpSocket4] else []) ++
    if bound6 then [.register .udpSocket6] else []

theorem start_ok {config : Config} {euid : Uid} {server : Server} {p' : Process}
    (h : (start system config).run ⟨euid, []⟩ = .ok server p') :
    ∃ sends4 sends6, server = .new sends4 sends6 ∧ sends4.isSome = config.dnsAddr4.isSome ∧
      (sends6.isSome = config.dnsAddr6.isSome ∨ config.requireV6 = false ∧ sends6 = none) ∧
      ((euid ≠ 0 ∨ config.username = none) ∧
          p' = ⟨euid, (actions config sends6.isSome).map (euid, ·)⟩ ∨
        euid = 0 ∧ ∃ username uid, config.username = some username ∧
          system.getpwnam username = some uid ∧ system.setuid uid = .ok () ∧
          p' = ⟨uid, (actions config sends6.isSome ++ [Action.setuid uid]).map (0, ·)⟩) := by
  unfold start at h
  obtain ⟨_, p1, h1, h⟩ := run_bind_ok_iff.1 h
  obtain ⟨sends4, p2, h2, h⟩ := run_bind_ok_iff.1 h
  obtain ⟨sends6, p3, h3, h⟩ := run_bind_ok_iff.1 h
  obtain ⟨_, p4, h4, h⟩ := run_bind_ok_iff.1 h
  obtain ⟨_, p5, h5, h⟩ := run_bind_ok_iff.1 h
  obtain ⟨_, p6, h6, h⟩ := run_bind_ok_iff.1 h
  obtain ⟨_, p7, h7, h⟩ := run_bind_ok_iff.1 h
  have hp1 := bindTcpListener_ok h1
  obtain ⟨hp2, hsocket4⟩ := bindUdpSocket_ok h2
  obtain ⟨hp3, hsocket6⟩ := bindUdpSocket_ok h3
  have hp4 := createPoll_ok h4
  have hp5 := register_ok h5
  have hp6 := registerUdp_ok h6
  have hp7 := registerUdp_ok h7
  have hsocket4 : sends4.isSome = config.dnsAddr4.isSome := by simpa using hsocket4
  subst hp1 hp2 hp3 hp4 hp5 hp6
  have hp7 : p7 = ⟨euid, (actions config sends6.isSome).map (euid, ·)⟩ := by
    rw [hp7, actions, ← hsocket4]
    simp
  subst hp7
  rcases husername : config.username with _ | username
  · rw [husername] at h
    obtain ⟨hserver, hp⟩ := EStateM.Result.ok.inj h
    exact ⟨sends4, sends6, hserver.symm, hsocket4, hsocket6, .inl ⟨.inr rfl, hp.symm⟩⟩
  · rw [husername] at h
    obtain ⟨_, p8, hset, h⟩ := run_bind_ok_iff.1 h
    obtain ⟨hserver, hp⟩ := EStateM.Result.ok.inj h
    refine ⟨sends4, sends6, hserver.symm, hsocket4, hsocket6, ?_⟩
    obtain ⟨hroot, hp8⟩ | ⟨hroot, uid, huid, hsetuid, hp8⟩ := setUser_ok hset
    · exact .inl ⟨.inl hroot, by rw [← hp, hp8]⟩
    · refine .inr ⟨hroot, username, uid, rfl, huid, hsetuid, ?_⟩
      have hroot : euid = 0 := hroot
      rw [← hp, hp8, hroot]
      simp

end

end Startup

/-! ## The program -/

section

variable {π : Type} {parse : List UInt8 → Except π (Status × Request)} {std : Std}
  {system : System} {euid : Uid} {env : String → Option String} {args : List String}
  {happenings : List Happening} {server : Server} {p : Process}

/-- A program that runs has read a configuration, started, and runs the loop of a new server. -/
theorem main_ok (h : main parse std system euid env args happenings = .ok server p) :
    ∃ config started, parseConfig std env args = .ok config ∧
      (Startup.start system config).run ⟨euid, []⟩ = .ok started p ∧
      started.mainLoop parse config.serverIps happenings = .ok server := by
  unfold main at h
  rcases hconfig : parseConfig std env args with e | config
  · rw [hconfig] at h
    cases e <;> cases h
  simp only [hconfig] at h
  rcases hstart : Startup.start system config ⟨euid, []⟩ with ⟨started, p1⟩ | ⟨e, p1⟩
  · simp only [hstart] at h
    rcases hloop : started.mainLoop parse config.serverIps happenings with stop | server1
    · simp only [hloop] at h
      cases h
    · simp only [hloop] at h
      obtain ⟨rfl, rfl⟩ := EStateM.Result.ok.inj h
      exact ⟨config, started, rfl, hstart, hloop⟩
  · simp only [hstart] at h
    cases h

/-- The program's process is the one that startup leaves. -/
theorem left_main (parse : List UInt8 → Except π (Status × Request)) (happenings : List Happening) :
    left (main parse std system euid env args happenings) = ⟨euid, []⟩ ∨
      ∃ config, left (main parse std system euid env args happenings) =
        left ((Startup.start system config).run ⟨euid, []⟩) := by
  unfold main
  rcases parseConfig std env args with e | config
  · cases e <;> exact .inl rfl
  refine .inr ⟨config, ?_⟩
  rcases hstart : Startup.start system config ⟨euid, []⟩ with ⟨started, p⟩ | ⟨e, p⟩
  · have hrun : (Startup.start system config).run ⟨euid, []⟩ = .ok started p := hstart
    simp only [hstart, hrun]
    rcases started.mainLoop parse config.serverIps happenings with stop | server <;> rfl
  · have hrun : (Startup.start system config).run ⟨euid, []⟩ = .error e p := hstart
    simp only [hstart, hrun]
    rfl

/-- However the program ends, what startup has asked of the system (the sockets, the poll, their
registrations and the change of user) it has asked for as the user that the program started as, and
none but the last was to become another.  While the program runs startup has asked for just what the
configuration says, and the process is the configured user, unless none is configured or it was not
the superuser.  What the loop itself asks of the system is not counted here. -/
theorem main_user (parse : List UInt8 → Except π (Status × Request)) (std : Std) (system : System)
    (euid : Uid) (env : String → Option String) (args : List String)
    (happenings : List Happening) :
    (∃ actions : List Action, (∀ uid, .setuid uid ∉ actions) ∧
      ((left (main parse std system euid env args happenings)).asked = actions.map (euid, ·) ∨
        euid = 0 ∧ ∃ uid, (left (main parse std system euid env args happenings)).asked =
          (actions ++ [Action.setuid uid]).map (0, ·))) ∧
    ∀ server p, main parse std system euid env args happenings = .ok server p →
      ∃ config bound6, parseConfig std env args = .ok config ∧
        ((euid ≠ 0 ∨ config.username = none) ∧
            p = ⟨euid, (Startup.actions config bound6).map (euid, ·)⟩ ∨
          euid = 0 ∧ ∃ username uid, config.username = some username ∧
            system.getpwnam username = some uid ∧ system.setuid uid = .ok () ∧
            p = ⟨uid, (Startup.actions config bound6 ++ [Action.setuid uid]).map (0, ·)⟩) := by
  constructor
  · obtain hleft | ⟨config, hleft⟩ := @left_main π std system euid env args parse happenings
    · exact ⟨[], by simp, .inl (by rw [hleft]; rfl)⟩
    rw [hleft]
    obtain ⟨-, actions, hnot, hasked⟩ | ⟨p1, uid, ⟨heuid, actions, hnot, hasked⟩, hroot, hset⟩ :=
      Startup.along_start system config ⟨euid, []⟩
    · exact ⟨actions, hnot, .inl (by simpa using hasked)⟩
    · have hroot : euid = 0 := heuid.symm.trans hroot
      refine ⟨actions, hnot, .inr ⟨hroot, uid, ?_⟩⟩
      rw [hset, hasked, hroot]
      simp
  · intro server p h
    obtain ⟨config, started, hconfig, hstart, -⟩ := main_ok h
    obtain ⟨-, sends6, -, -, -, huser⟩ := Startup.start_ok hstart
    exact ⟨config, sends6.isSome, hconfig, huser⟩

section WithoutIpv6

/-- A system without IPv6, that knows one user. -/
def withoutIpv6 : System where
  bindTcp _ := .ok ()
  bindUdp _ addr :=
    if addr.isIpv6 then .error ⟨.other, "Address family not supported by protocol"⟩ else .ok []
  createPoll := .ok ()
  register _ := .ok ()
  getpwnam username := if username = "nobody" then some 65534 else none
  setuid _ := .ok ()

def nobodyEnv : String → Option String := envOf [("CERTBOT_DNS_CHAMP_USERNAME", "nobody")]

theorem main_nobody : ∃ server p,
    main (parseAmong []) smallStd withoutIpv6 0 nobodyEnv [] [] = .ok server p ∧ p.euid = 65534 ∧
      server.bound .udpSocket6 = false :=
  ⟨_, _, rfl, rfl, rfl⟩

theorem main_user_nobody : ∃ server p,
    main (parseAmong []) smallStd withoutIpv6 0 nobodyEnv [] [] = .ok server p ∧
      ∃ config bound6, parseConfig smallStd nobodyEnv [] = .ok config ∧
        p.asked = (Startup.actions config bound6 ++ [Action.setuid 65534]).map (0, ·) := by
  obtain ⟨server, p, hmain, huid, -⟩ := main_nobody
  obtain ⟨config, bound6, hconfig, ⟨hstays, -⟩ | ⟨-, _, uid, -, -, -, rfl⟩⟩ :=
    (main_user (parseAmong []) smallStd withoutIpv6 0 nobodyEnv [] []).2 server p hmain
  · obtain rfl : (Config.ofEnv smallStd nobodyEnv).finish smallStd = config := Except.ok.inj hconfig
    rcases hstays with h | h
    · exact absurd rfl h
    · cases h
  · obtain rfl : uid = 65534 := huid
    exact ⟨server, _, hmain, config, bound6, hconfig, rfl⟩

end WithoutIpv6

/-- While the program runs, each of the two DNS slots has a socket if the configuration has an
address in it, of whichever family that address is; only the default of the second slot may be
missing, and there is always a DNS socket. -/
theorem main_bound (h : main parse std system euid env args happenings = .ok server p) :
    ∃ config, parseConfig std env args = .ok config ∧
      server.bound .udpSocket4 = config.dnsAddr4.isSome ∧
      (server.bound .udpSocket6 = config.dnsAddr6.isSome ∨ argsAddrs std args = [] ∧
        (env "CERTBOT_DNS_CHAMP_DNS_ADDR").bind (parseSocketish std) = none ∧
        (env "CERTBOT_DNS_CHAMP_DNS_ADDR_6").bind (parseSocketish std) = none) ∧
      (server.bound .udpSocket4 ∨ server.bound .udpSocket6) := by
  obtain ⟨config, started, hconfig, hstart, hloop⟩ := main_ok h
  obtain ⟨sends4, sends6, rfl, h4, h6, -⟩ := Startup.start_ok hstart
  obtain ⟨c, hc, rfl⟩ := parseConfig_ok hconfig
  have hips : c.serverIps = ⟨none, none⟩ := hc.serverIps
  have hbound4 : server.bound .udpSocket4 = sends4.isSome := by
    rw [Server.bound_mainLoop hloop]
    cases sends4 <;> rfl
  have hbound6 : server.bound .udpSocket6 = sends6.isSome := by
    rw [Server.bound_mainLoop hloop]
    cases sends6 <;> rfl
  refine ⟨c.finish std, hconfig, hbound4.trans h4, ?_⟩
  rw [Config.finish_eq std hips] at h4 h6 ⊢
  by_cases hnone : c.dnsAddr4 = none ∧ c.dnsAddr6 = none
  · -- nothing is configured, and the default of IPv4 is required
    obtain ⟨hnone4, hnone6⟩ := hnone
    have hdefault : sends4.isSome = true := by
      rw [h4]
      unfold Config.withDefaults
      rw [if_pos ⟨hnone4, hnone6⟩]
      rfl
    rw [hc.dnsAddr4, Option.or_eq_none_iff, lastAddr_eq_none_iff] at hnone4
    rw [hc.dnsAddr6, Option.or_eq_none_iff, lastAddr_eq_none_iff] at hnone6
    refine ⟨.inr ⟨List.eq_nil_iff_forall_not_mem.2 fun addr haddr => ?_, hnone4.2, hnone6.2⟩,
      .inl (hbound4.trans hdefault)⟩
    have hv4 := hnone4.1 addr haddr
    have hv6 := hnone6.1 addr haddr
    cases addr <;> simp [SocketAddr.isIpv4, SocketAddr.isIpv6] at hv4 hv6
  · have hdefaults : c.withDefaults std = c := if_neg hnone
    rw [hdefaults] at h4 h6 ⊢
    have h6 : sends6.isSome = c.dnsAddr6.isSome := by
      refine h6.resolve_right fun h => ?_
      rw [hc.requireV6] at h
      cases h.1
    refine ⟨.inl (hbound6.trans h6), ?_⟩
    rw [hbound4, hbound6, h4, h6, Option.isSome_iff_ne_none, Option.isSome_iff_ne_none]
    exact not_and_or.1 hnone

/-- The default IPv6 address is missing, and the IPv4 one is there. -/
theorem main_bound_nobody : ∃ server p,
    main (parseAmong []) smallStd withoutIpv6 0 nobodyEnv [] [] = .ok server p ∧
      server.bound .udpSocket6 = false ∧ server.bound .udpSocket4 = true := by
  obtain ⟨server, p, hmain, -, h6⟩ := main_nobody
  obtain ⟨_, -, -, -, h4 | h6'⟩ := main_bound hmain
  · exact ⟨server, p, hmain, h6, h4⟩
  · rw [h6] at h6'
    cases h6'

end

end AcmeChampion
