import BrilloBoot.Lib.PacketFilter

/-!
# The firewall

The scripts `init.firewall-setup.sh` and `init.firewall-adbd-setup.sh`, as the commands that they
give to `iptables` and `ip6tables`. The second one runs any number of times after the first one, as
`brillo.rc` starts it. `firewall_accepts_iff` says which packets the device then accepts. Commands
may fail, and the scripts go on: what is accepted then is accepted without the failure, save where
the policy of a chain could not be set (`firewall_fails_closed`).

Every command accepts something or sets a policy to drop (`firewall_allows`), so that by the rules
of `PacketFilter` only the rules that a list of commands adds matter, not their order. `OpenedBy` is
what they add to a chain. It is computed part by part: for one turn of the setup
(`openedBy_firewallSetupTurn`), for one run of the script for adbd (`openedBy_openAdbdPort`), and
then for all of them (`openedBy_firewall`). Both results are cases of `decide_eq_accept_iff`, which
is about any part of the commands.
-/

namespace BrilloBoot

open PacketFilter

/-! ## Packets and rules -/

/-- The two programs. -/
inductive Iptables
  | iptables
  | ip6tables
deriving DecidableEq

/-- The built-in chains. -/
inductive Hook
  | INPUT
  | FORWARD
  | OUTPUT
deriving DecidableEq

/-- The state of a packet's connection. -/
inductive ConnState
  | NEW
  | ESTABLISHED
  | RELATED
  | INVALID
  | UNTRACKED
deriving DecidableEq

/-- A packet, as far as the rules look at it. -/
structure Packet where
  protocol : ℕ
  inInterface : String
  outInterface : String
  destination : ℕ
  sport : ℕ
  dport : ℕ
  syn : Bool
  ack : Bool
  rst : Bool
  fin : Bool
  state : ConnState

/-- The options of a rule. -/
structure Match where
  p : Option ℕ := none
  i : Option String := none
  o : Option String := none
  destination : Option ℕ := none
  sport : Option (ℕ × ℕ) := none
  dport : Option (ℕ × ℕ) := none
  syn : Bool := false
  state : Option (List ConnState) := none

/-- An option that is given must hold. -/
def given {α : Type*} (option : Option α) (holds : α → Bool) : Bool := option.all holds

/-- The port is in a range. -/
def inRange (port : ℕ) (range : ℕ × ℕ) : Bool := range.1 ≤ port && port ≤ range.2

/-- All the options of the rule hold of the packet. -/
def Match.applies (m : Match) (x : Packet) : Bool :=
  given m.p (x.protocol == ·) && given m.i (x.inInterface == ·) &&
    given m.o (x.outInterface == ·) && given m.destination (x.destination == ·) &&
    given m.sport (inRange x.sport) && given m.dport (inRange x.dport) &&
    (!m.syn || x.syn && !x.ack && !x.rst && !x.fin) && given m.state (·.contains x.state)

/-- `-j ACCEPT`. -/
def accept (m : Match) : Rule Packet := ⟨m.applies, .accept⟩

/-- `-p icmp`. -/
def icmp : ℕ := 1

/-- `-p tcp`. -/
def tcp : ℕ := 6

/-- `-p udp`. -/
def udp : ℕ := 17

/-- `-p icmpv6`. -/
def ipv6Icmp : ℕ := 58

/-- `224.0.0.251`. -/
def mdnsAddress : ℕ := 0xE00000FB

/-- `FF02::FB`. -/
def mdnsAddress6 : ℕ := 0xFF0200000000000000000000000000FB

/-- The packets of mDNS. -/
def mdns (destination : ℕ) : Match :=
  { p := some udp, destination := some destination, dport := some (5353, 5353) }

/-- The packets of DHCP, of a client or a server. -/
def dhcp : Match := { p := some udp, dport := some (67, 68), sport := some (67, 68) }

/-- The packets that open a connection to adbd. -/
def adbd (ports : ℕ × ℕ) : Match :=
  { p := some tcp, dport := some ports, syn := true, state := some [.NEW] }

/-! ## The scripts -/

/-- A command of a script. -/
abbrev Rules := List (Command (Iptables × Hook) Packet)

/-- `iptables_icmp_setup`. -/
def iptablesIcmpSetup : Rules :=
  [⟨(.iptables, .INPUT), .append (accept { p := some icmp })⟩]

/-- `iptables_mdns_setup`. -/
def iptablesMdnsSetup : Rules :=
  [⟨(.iptables, .INPUT), .append (accept (mdns mdnsAddress))⟩]

/-- `ip6tables_icmp_setup`. -/
def ip6tablesIcmpSetup : Rules :=
  [⟨(.ip6tables, .INPUT), .append (accept { p := some ipv6Icmp })⟩,
    ⟨(.ip6tables, .OUTPUT), .append (accept { p := some ipv6Icmp })⟩]

/-- `ip6tables_mdns_setup`. -/
def ip6tablesMdnsSetup : Rules :=
  [⟨(.ip6tables, .INPUT), .append (accept (mdns mdnsAddress6))⟩]

/-- `${iptables}_icmp_setup`. -/
def Iptables.icmpSetup : Iptables → Rules
  | .iptables => iptablesIcmpSetup
  | .ip6tables => ip6tablesIcmpSetup

/-- `${iptables}_mdns_setup`. -/
def Iptables.mdnsSetup : Iptables → Rules
  | .iptables => iptablesMdnsSetup
  | .ip6tables => ip6tablesMdnsSetup

/-- A turn of the loop of `init.firewall-setup.sh`. -/
def firewallSetupTurn (t : Iptables) : Rules :=
  [⟨(t, .INPUT), .policy .drop⟩, ⟨(t, .FORWARD), .policy .drop⟩, ⟨(t, .OUTPUT), .policy .drop⟩,
    -- Everything on the loopback.
    ⟨(t, .INPUT), .insert (accept { i := some "lo" })⟩,
    ⟨(t, .OUTPUT), .insert (accept { o := some "lo" })⟩,
    -- Return traffic inbound.
    ⟨(t, .INPUT), .insert (accept { state := some [.ESTABLISHED, .RELATED] })⟩] ++
  t.icmpSetup ++
  -- New and return traffic outbound.
  [⟨(t, .OUTPUT), .insert (accept { state := some [.NEW, .ESTABLISHED, .RELATED] })⟩] ++
  t.mdnsSetup ++
  [⟨(t, .INPUT), .insert (accept dhcp)⟩,
    ⟨(t, .OUTPUT), .insert (accept dhcp)⟩]

/-- `init.firewall-setup.sh`. A program that is not executable is left out. -/
def firewallSetup (executable : Iptables → Bool) : Rules :=
  [Iptables.iptables, .ip6tables].flatMap fun t =>
    if executable t then firewallSetupTurn t else []

/-- How the tools read a port. -/
structure PortReading where
  /-- `[ "${port}" -gt 0 ]` -/
  positive : String → Bool
  /-- The ports of `--dport`. The command fails if there are none. -/
  dport : String → Option (ℕ × ℕ)

/-- The properties that `open_adbd_port` gets. -/
structure AdbdPorts where
  service : String
  persist : String

/-- The port of `open_adbd_port`. -/
def AdbdPorts.port (g : AdbdPorts) : String := if g.service = "" then g.persist else g.service

/-- `open_adbd_port`. -/
def openAdbdPort (reading : PortReading) (g : AdbdPorts) : Rules :=
  if reading.positive g.port then
    [Iptables.iptables, .ip6tables].flatMap fun t =>
      match reading.dport g.port with
      | none => []
      | some ports => [⟨(t, .INPUT), .insert (accept (adbd ports))⟩]
  else []

/-- The setup, and then the runs of `init.firewall-adbd-setup.sh`. -/
def firewall (executable : Iptables → Bool) (reading : PortReading) (runs : List AdbdPorts) :
    Rules :=
  firewallSetup executable ++ runs.flatMap (openAdbdPort reading)

/-- Chains without rules, as the kernel starts them. -/
def emptyChains (policy : Verdict) : Iptables × Hook → Chain Packet := fun _ => ⟨[], policy⟩

/-! ## What is accepted -/

/-- A DHCP packet, of a client or a server. -/
def Packet.Dhcp (x : Packet) : Prop :=
  x.protocol = udp ∧ (67 ≤ x.sport ∧ x.sport ≤ 68) ∧ (67 ≤ x.dport ∧ x.dport ≤ 68)

/-- The ICMP of a program. -/
def Iptables.icmp : Iptables → ℕ
  | .iptables => BrilloBoot.icmp
  | .ip6tables => ipv6Icmp

/-- The group address that the script opens for mDNS. -/
def Iptables.mdnsAddress : Iptables → ℕ
  | .iptables => BrilloBoot.mdnsAddress
  | .ip6tables => mdnsAddress6

/-- The packet opens a TCP connection to a port of adbd. -/
def Packet.Adbd (x : Packet) (reading : PortReading) (runs : List AdbdPorts) : Prop :=
  ∃ g ∈ runs, reading.positive g.port = true ∧ ∃ ports ∈ reading.dport g.port,
    x.protocol = tcp ∧ (ports.1 ≤ x.dport ∧ x.dport ≤ ports.2) ∧
      (x.syn = true ∧ x.ack = false ∧ x.rst = false ∧ x.fin = false) ∧ x.state = .NEW

/-- What the firewall is for, at a chain. -/
def Allowed (reading : PortReading) (runs : List AdbdPorts) (t : Iptables) (x : Packet) :
    Hook → Prop
  | .INPUT => x.inInterface = "lo" ∨ x.state = .ESTABLISHED ∨ x.state = .RELATED ∨
      x.protocol = t.icmp ∨ (x.protocol = udp ∧ x.destination = t.mdnsAddress ∧ x.dport = 5353) ∨
      x.Dhcp ∨ x.Adbd reading runs
  | .FORWARD => False
  | .OUTPUT => x.outInterface = "lo" ∨ (t = .ip6tables ∧ x.protocol = t.icmp) ∨ x.state = .NEW ∨
      x.state = .ESTABLISHED ∨ x.state = .RELATED ∨ x.Dhcp

/-- One of the commands opens the chain to the packet. -/
def OpenedBy (commands : Rules) (t : Iptables) (hook : Hook) (x : Packet) : Prop :=
  ∃ c ∈ commands, c.chain = (t, hook) ∧ c.edit.opens x = true

section

variable {t : Iptables} {hook : Hook} {x : Packet}

/-- One list of commands after another. -/
theorem openedBy_append {xs ys : Rules} :
    OpenedBy (xs ++ ys) t hook x ↔ OpenedBy xs t hook x ∨ OpenedBy ys t hook x := by
  unfold OpenedBy
  simp only [List.mem_append, or_and_right, exists_or]

/-- The commands of a loop. -/
theorem openedBy_flatMap {α : Type*} {xs : List α} {f : α → Rules} :
    OpenedBy (xs.flatMap f) t hook x ↔ ∃ a ∈ xs, OpenedBy (f a) t hook x := by
  unfold OpenedBy
  simp only [List.mem_flatMap]
  exact ⟨fun ⟨c, ⟨a, ha, hc⟩, h⟩ => ⟨a, ha, c, hc, h⟩, fun ⟨a, ha, c, hc, h⟩ => ⟨c, ⟨a, ha, hc⟩, h⟩⟩

/-- The first command, or one of the rest. -/
theorem openedBy_cons {c : Command (Iptables × Hook) Packet} {xs : Rules} :
    OpenedBy (c :: xs) t hook x ↔
      c.chain = (t, hook) ∧ c.edit.opens x = true ∨ OpenedBy xs t hook x := by
  unfold OpenedBy
  simp only [List.mem_cons, or_and_right, exists_or, exists_eq_left]

/-- No command opens anything. -/
theorem not_openedBy_nil : ¬OpenedBy [] t hook x := by simp [OpenedBy]

/-- `-p` alone. -/
theorem applies_protocol {n : ℕ} :
    ({ p := some n } : Match).applies x = true ↔ x.protocol = n := by
  simp [Match.applies, given]

/-- `-i` alone. -/
theorem applies_inInterface {name : String} :
    ({ i := some name } : Match).applies x = true ↔ x.inInterface = name := by
  simp [Match.applies, given]

/-- `-o` alone. -/
theorem applies_outInterface {name : String} :
    ({ o := some name } : Match).applies x = true ↔ x.outInterface = name := by
  simp [Match.applies, given]

/-- `--state` alone. -/
theorem applies_state {states : List ConnState} :
    ({ state := some states } : Match).applies x = true ↔ x.state ∈ states := by
  simp [Match.applies, given]

/-- The match of DHCP. -/
theorem dhcp_applies : dhcp.applies x = true ↔ x.Dhcp := by
  simp [dhcp, Match.applies, given, inRange, Packet.Dhcp, and_assoc]

/-- The match of mDNS. -/
theorem mdns_applies {address : ℕ} : (mdns address).applies x = true ↔
    x.protocol = udp ∧ x.destination = address ∧ x.dport = 5353 := by
  have hport : inRange x.dport (5353, 5353) = true ↔ x.dport = 5353 := by
    simp only [inRange, Bool.and_eq_true, decide_eq_true_eq]
    omega
  simp [mdns, Match.applies, given, hport, and_assoc]

/-- The match of the ports of adbd. -/
theorem adbd_applies {ports : ℕ × ℕ} : (adbd ports).applies x = true ↔
    x.protocol = tcp ∧ (ports.1 ≤ x.dport ∧ x.dport ≤ ports.2) ∧
      (x.syn = true ∧ x.ack = false ∧ x.rst = false ∧ x.fin = false) ∧ x.state = .NEW := by
  simp [adbd, Match.applies, given, inRange, and_assoc]

/-- **What a turn of the setup opens.** -/
theorem openedBy_firewallSetupTurn {reading : PortReading} {t' : Iptables} :
    OpenedBy (firewallSetupTurn t') t hook x ↔ t' = t ∧ Allowed reading [] t x hook := by
  have hadbd : ¬x.Adbd reading [] := by simp [Packet.Adbd]
  simp only [firewallSetupTurn, openedBy_append, openedBy_cons, not_openedBy_nil, Prod.mk.injEq,
    Edit.opens, accept, applies_inInterface, applies_outInterface, applies_state, dhcp_applies]
  cases t' <;> cases t <;> cases hook <;>
    simp [Allowed, hadbd, Iptables.icmpSetup, Iptables.mdnsSetup, iptablesIcmpSetup,
      iptablesMdnsSetup, ip6tablesIcmpSetup, ip6tablesMdnsSetup, openedBy_cons, not_openedBy_nil,
      Edit.opens, accept, mdns_applies, applies_protocol, Iptables.icmp, Iptables.mdnsAddress,
      or_assoc]

/-- **What a run for adbd opens.** -/
theorem openedBy_openAdbdPort {reading : PortReading} {g : AdbdPorts} :
    OpenedBy (openAdbdPort reading g) t hook x ↔ hook = .INPUT ∧ x.Adbd reading [g] := by
  unfold openAdbdPort
  cases hpositive : reading.positive g.port with
  | false => simp [not_openedBy_nil, Packet.Adbd, hpositive]
  | true =>
    rcases hdport : reading.dport g.port with _ | ports
    · simp [not_openedBy_nil, Packet.Adbd, hdport]
    · have hadbd : x.Adbd reading [g] ↔ (adbd ports).applies x = true := by
        rw [adbd_applies]
        constructor
        · rintro ⟨g', hg', -, ports', hports', h⟩
          obtain rfl := List.mem_singleton.mp hg'
          obtain rfl := Option.some.inj (hdport.symm.trans hports')
          exact h
        · exact fun h => ⟨g, List.mem_singleton_self g, hpositive, ports, hdport, h⟩
      simp only [if_true, openedBy_flatMap, openedBy_cons, not_openedBy_nil, or_false,
        Prod.mk.injEq, Edit.opens, accept]
      cases t <;> simp [hadbd, eq_comm (a := hook)]

/-- **What the scripts open.** -/
theorem openedBy_firewall {executable : Iptables → Bool} {reading : PortReading}
    {runs : List AdbdPorts} :
    OpenedBy (firewall executable reading runs) t hook x ↔
      (executable t = true ∧ Allowed reading [] t x hook) ∨
        (hook = .INPUT ∧ x.Adbd reading runs) := by
  have hsetup : OpenedBy (firewallSetup executable) t hook x ↔
      executable t = true ∧ Allowed reading [] t x hook := by
    have hturn (t' : Iptables) :
        OpenedBy (if executable t' then firewallSetupTurn t' else []) t hook x ↔
          executable t' = true ∧ t' = t ∧ Allowed reading [] t x hook := by
      cases executable t' with
      | true => simpa using openedBy_firewallSetupTurn
      | false => simpa using not_openedBy_nil
    simp only [firewallSetup, openedBy_flatMap, hturn]
    cases t <;> simp
  have hruns : OpenedBy (runs.flatMap (openAdbdPort reading)) t hook x ↔
      hook = .INPUT ∧ x.Adbd reading runs := by
    simp only [openedBy_flatMap, openedBy_openAdbdPort, Packet.Adbd, List.mem_singleton,
      exists_eq_left]
    exact ⟨fun ⟨g, hg, hhook, h⟩ => ⟨hhook, g, hg, h⟩, fun ⟨hhook, g, hg, h⟩ => ⟨g, hg, hhook, h⟩⟩
  rw [firewall, openedBy_append, hsetup, hruns]

/-- The script for adbd adds the ports of adbd to what the setup allows. -/
theorem allowed_iff {reading : PortReading} {runs : List AdbdPorts} :
    Allowed reading runs t x hook ↔
      Allowed reading [] t x hook ∨ (hook = .INPUT ∧ x.Adbd reading runs) := by
  have hadbd : ¬x.Adbd reading [] := by simp [Packet.Adbd]
  cases hook <;> simp [Allowed, hadbd, or_assoc]

/-- The setup inserts accepting rules and drops, and nothing else. -/
theorem firewallSetupTurn_allows (t : Iptables) :
    ∀ c ∈ firewallSetupTurn t, c.edit.Allows := by
  cases t <;>
    simp [firewallSetupTurn, Iptables.icmpSetup, Iptables.mdnsSetup, iptablesIcmpSetup,
      iptablesMdnsSetup, ip6tablesIcmpSetup, ip6tablesMdnsSetup, Edit.Allows, accept]

/-- So does the script for adbd. -/
theorem openAdbdPort_allows (reading : PortReading) (g : AdbdPorts) :
    ∀ c ∈ openAdbdPort reading g, c.edit.Allows := by
  unfold openAdbdPort
  cases reading.positive g.port with
  | false => simp
  | true => cases reading.dport g.port <;> simp [Edit.Allows, accept]

/-- The commands of the scripts belong to a list of what is allowed. -/
theorem firewall_allows {executable : Iptables → Bool} {reading : PortReading}
    {runs : List AdbdPorts} : ∀ c ∈ firewall executable reading runs, c.edit.Allows := by
  intro c hc
  rcases List.mem_append.mp hc with hc | hc
  · obtain ⟨t, -, hc⟩ := List.mem_flatMap.mp hc
    cases hexe : executable t with
    | true => exact firewallSetupTurn_allows t c (by simpa [hexe] using hc)
    | false => simp [hexe] at hc
  · obtain ⟨g, -, hc⟩ := List.mem_flatMap.mp hc
    exact openAdbdPort_allows reading g c hc

/-- The policy of a chain is dropped. -/
def dropPolicy (t : Iptables) (hook : Hook) : Command (Iptables × Hook) Packet :=
  ⟨(t, hook), .policy .drop⟩

/-- Each turn of the setup closes its own chains. -/
theorem dropPolicy_mem_firewallSetupTurn {t' : Iptables} :
    dropPolicy t hook ∈ firewallSetupTurn t' ↔ t' = t := by
  cases t' <;> cases t <;> cases hook <;>
    simp [dropPolicy, firewallSetupTurn, Iptables.icmpSetup, Iptables.mdnsSetup,
      iptablesIcmpSetup, iptablesMdnsSetup, ip6tablesIcmpSetup, ip6tablesMdnsSetup]

/-- The script for adbd closes no chain. -/
theorem dropPolicy_notMem_openAdbdPort (reading : PortReading) (g : AdbdPorts) :
    dropPolicy t hook ∉ openAdbdPort reading g := by
  unfold openAdbdPort
  cases reading.positive g.port with
  | false => simp
  | true => cases reading.dport g.port <;> simp [dropPolicy]

/-- The scripts set the policies of the programs that there are. -/
theorem dropPolicy_mem {executable : Iptables → Bool} {reading : PortReading}
    {runs : List AdbdPorts} :
    dropPolicy t hook ∈ firewall executable reading runs ↔ executable t = true := by
  rw [firewall, List.mem_append, List.mem_flatMap, firewallSetup, List.mem_flatMap]
  constructor
  · rintro (⟨t', -, hmem⟩ | ⟨g, -, hmem⟩)
    · cases hexe : executable t' with
      | true =>
        rw [hexe, if_pos rfl] at hmem
        exact dropPolicy_mem_firewallSetupTurn.mp hmem ▸ hexe
      | false => simp [hexe] at hmem
    · exact absurd hmem (dropPolicy_notMem_openAdbdPort reading g)
  · intro hexe
    refine .inl ⟨t, by cases t <;> simp, ?_⟩
    rw [if_pos hexe]
    exact dropPolicy_mem_firewallSetupTurn.mpr rfl

/-- **What is accepted after some of the commands.** -/
theorem decide_eq_accept_iff {executable : Iptables → Bool} {reading : PortReading}
    {runs : List AdbdPorts} {ran : Rules} (hran : ran.Sublist (firewall executable reading runs))
    (policy : Verdict) :
    (run ran (emptyChains policy) (t, hook)).decide x = .accept ↔
      OpenedBy ran t hook x ∨ (policy = .accept ∧ dropPolicy t hook ∉ ran) := by
  have hallows : ∀ c ∈ ran, c.edit.Allows := fun c hc => firewall_allows c (hran.subset hc)
  have hempty : (emptyChains policy (t, hook)).Accepting := by simp [emptyChains, Chain.Accepting]
  -- The only policy that the scripts set is to drop.
  have hshuts : (∀ c ∈ ran, c.chain = (t, hook) → c.edit.shuts = false) ↔
      dropPolicy t hook ∉ ran := by
    constructor
    · intro h hmem
      exact absurd (h _ hmem rfl) (by simp [dropPolicy, Edit.shuts])
    · rintro h ⟨chain, edit⟩ hc rfl
      cases edit with
      | policy verdict =>
        obtain rfl : verdict = .drop := hallows _ hc
        exact absurd hc h
      | append rule => rfl
      | insert rule => rfl
  rw [decide_run_eq_accept_iff hallows hempty, hshuts]
  simp [emptyChains, OpenedBy]

end

/-- **What the device accepts**, once the setup has run, and then the script for adbd any number of
times: the loopback, return traffic, ICMP, mDNS, DHCP and new TCP connections to any port that adbd
has had. Nothing is forwarded. It sends on the loopback and in a valid state of the connection, and
ICMPv6 and DHCP in every state. -/
theorem firewall_accepts_iff (policy : Verdict) (reading : PortReading) (runs : List AdbdPorts)
    (t : Iptables) (hook : Hook) (x : Packet) :
    (run (firewall (fun _ => true) reading runs) (emptyChains policy) (t, hook)).decide x =
      .accept ↔ Allowed reading runs t x hook := by
  have hdrop : dropPolicy t hook ∈ firewall (fun _ => true) reading runs :=
    dropPolicy_mem.mpr rfl
  rw [decide_eq_accept_iff (List.Sublist.refl _), openedBy_firewall]
  simp only [hdrop, not_true_eq_false, and_false, or_false, true_and]
  exact allowed_iff.symm

/-- **The firewall fails closed.** Whichever commands fail, and at every moment of the run, a packet
is accepted only if it is allowed, or if the policy of its chain is still the one of the kernel. -/
theorem firewall_fails_closed {executable : Iptables → Bool} {reading : PortReading}
    {runs : List AdbdPorts} {ran : Rules} {policy : Verdict} {t : Iptables} {hook : Hook}
    {x : Packet} (hran : ran.Sublist (firewall executable reading runs))
    (haccept : (run ran (emptyChains policy) (t, hook)).decide x = .accept) :
    Allowed reading runs t x hook ∨ (policy = .accept ∧ dropPolicy t hook ∉ ran) := by
  refine ((decide_eq_accept_iff hran policy).mp haccept).imp_left fun ⟨c, hc, hopens⟩ => ?_
  have hopened : OpenedBy (firewall executable reading runs) t hook x :=
    ⟨c, hran.subset hc, hopens⟩
  exact allowed_iff.mpr ((openedBy_firewall.mp hopened).imp_left And.right)

/-- A port in decimal digits. -/
def decimal : PortReading :=
  ⟨fun port => port.toNat?.any (0 < ·), fun port => port.toNat?.map fun n => (n, n)⟩

/-- A packet on the loopback. -/
def loopbackPacket : Packet :=
  { protocol := tcp, inInterface := "lo", outInterface := "lo", destination := 0x7F000001,
    sport := 40000, dport := 80, syn := true, ack := false, rst := false, fin := false,
    state := .NEW }

/-- The setup has come as far as the loopback. -/
theorem firewall_fails_closed_loopback :
    Allowed decimal [] .iptables loopbackPacket .INPUT ∨
      (Verdict.accept = .accept ∧
        dropPolicy .iptables .INPUT ∉ (firewall (fun _ => true) decimal []).take 4) :=
  firewall_fails_closed (List.take_sublist 4 _) rfl

end BrilloBoot
