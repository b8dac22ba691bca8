import Ptpd.Lib.CString
import Ptpd.NetConfig
import Ptpd.Nmea

/-! # The network command of the serial port (`cmd_handle.c`: `cmd_handle_usart5`)

    `AT+SETP=` is followed by address, mask and gateway. Twelve loops, each up to
    its separator, copy a number into a buffer of five octets and assign it at once;
    a number that is too long ends the command half-way.
-/

namespace Ptpd

open CString Decimal

/-! ## The function -/

abbrev SYSTEM : UInt8 := 2
abbrev UDP_CONNET : UInt8 := 4
abbrev IPSHOW : UInt8 := 5
abbrev IP_ERROR : UInt8 := 6
abbrev PTP_SLAVE_BACK : UInt8 := 11
abbrev PTP_MASTER_BACK : UInt8 := 12

def E1_MASTER : List UInt8 := ['E', '1', ' ', 'M', 'a', 's', 't', 'e', 'r'].map ascii
def E1_SLAVE : List UInt8 := ['E', '1', ' ', 'S', 'l', 'a', 'v', 'e'].map ascii
def AT_SYSTEM : List UInt8 := ['A', 'T', '\r', '\n'].map ascii
def AT_SETP : List UInt8 := ['A', 'T', '+', 'S', 'E', 'T', 'P', '='].map ascii
def AT_E1SHOW : List UInt8 := ['A', 'T', '+', 'E', '1', 'S', 'H', 'O', 'W', '='].map ascii

structure Usart5 where
  /-- `netif_ip_addr1` to `netif_ip_addr4`, then the same of `netmask` and `gw`. -/
  netif_ip : Nat → UInt8
  net : NetState

/-- What the twelve loops stop at. -/
def setpStops : List UInt8 :=
  [',', ',', ',', '/', ',', ',', ',', '/', ',', ',', ',', '/'].map ascii

/-- One of the loops: the octets before the separator, and those behind it. Inner `none`
    is the return with `IP_ERROR`. -/
def scanNumber (stop : UInt8) : (text buff : List UInt8) → Option (Option (List UInt8 × List UInt8))
  | [], _ => none
  | c :: text, buff =>
    if c = stop then some (some (buff, text))
    else if buff.length + 1 ≥ 5 then some none
    else scanNumber stop text (buff ++ [c])

/-- The loops from variable `k` on, and whether they all came to their ends. -/
def scanNumbers : (stops : List UInt8) → (k : Nat) → (text : List UInt8) → (netif_ip : Nat → UInt8) →
    Option ((Nat → UInt8) × Bool)
  | [], _, _, netif_ip => some (netif_ip, true)
  | stop :: stops, k, text, netif_ip => do
    match ← scanNumber stop text [] with
    | none => return (netif_ip, false)
    | some (buff, text) =>
      scanNumbers stops (k + 1) text (Function.update netif_ip k (.ofInt (atoi buff)))

def setpConfig (netif_ip : Nat → UInt8) : NetConfig where
  ip := ⟨netif_ip 0, netif_ip 1, netif_ip 2, netif_ip 3⟩
  mask := ⟨netif_ip 4, netif_ip 5, netif_ip 6, netif_ip 7⟩
  gatway := ⟨netif_ip 8, netif_ip 9, netif_ip 10, netif_ip 11⟩

/-- `AT+SETP=`, of the text behind it. -/
def cmdSetp (text : List UInt8) (s : Usart5) : Option (UInt8 × Usart5) := do
  let (netif_ip, done) ← scanNumbers setpStops 0 text s.netif_ip
  if done then return (UDP_CONNET, ⟨netif_ip, setNetConfig (setpConfig netif_ip) s.net⟩)
  else return (IP_ERROR, { s with netif_ip := netif_ip })

/-- The mode is stored, also in flash. -/
def Usart5.setMode (PTP_MODE : PtpMode) (s : Usart5) : Usart5 :=
  { s with net.TS_FDS.PTP_MODE := PTP_MODE }

/-- The commands before `AT+SETP=`. -/
def cmdModes (p : List UInt8) (s : Usart5) : Option (UInt8 × Usart5) := do
  let (ret, s) :=
    match ← strstr E1_MASTER p with
    | some _ => (PTP_MASTER_BACK, s.setMode .emPTPMaster)
    | none => (10, s)
  let (ret, s) ←
    match ← strstr E1_SLAVE p with
    | some _ => do
      -- the buffer is sent on as a string
      let _ ← strlen p
      pure (PTP_SLAVE_BACK, s.setMode .emPTPSlave)
    | none => pure (ret, s)
  match ← strstr AT_SYSTEM p with
  | some _ => return (SYSTEM, s)
  | none => return (ret, s)

/-- The value that is returned, and the variables after the call. -/
def cmd_handle_usart5 (str : List UInt8) (s : Usart5) : Option (UInt8 × Usart5) := do
  let p := str.take 512
  let (ret, s) ← cmdModes p s
  match ← strstr AT_SETP p with
  -- the answer is written over the buffer, which holds no further command then
  | some cpos => cmdSetp (cpos.drop AT_SETP.length) s
  | none =>
    match ← strstr AT_E1SHOW p with
    | some _ => return (IPSHOW, s)
    | none => return (ret, s)

/-! ## What is claimed -/

/-- A decimal number of 0 to 255. -/
structure SetpNumber where
  digits : List (Fin 10)
  digits_ne : digits ≠ []
  value_lt : value digits < 256

/-- `a,b,c,d/`. -/
structure SetpQuad where
  a : SetpNumber
  b : SetpNumber
  c : SetpNumber
  d : SetpNumber

/-- Three of them. -/
structure SetpText where
  ip : SetpQuad
  mask : SetpQuad
  gatway : SetpQuad

def SetpNumber.octets (n : SetpNumber) : List UInt8 := text n.digits

def SetpQuad.octets (q : SetpQuad) : List UInt8 :=
  q.a.octets ++ ascii ',' :: q.b.octets ++ ascii ',' :: q.c.octets ++ ascii ',' :: q.d.octets ++
    [ascii '/']

def SetpText.octets (c : SetpText) : List UInt8 := c.ip.octets ++ c.mask.octets ++ c.gatway.octets

def SetpNumber.octet (n : SetpNumber) : UInt8 := .ofNat (value n.digits)

def SetpQuad.quad (q : SetpQuad) : IpQuad := ⟨q.a.octet, q.b.octet, q.c.octet, q.d.octet⟩

def SetpText.config (c : SetpText) : NetConfig := ⟨c.ip.quad, c.mask.quad, c.gatway.quad⟩

def SetpQuad.numbers (q : SetpQuad) : List SetpNumber := [q.a, q.b, q.c, q.d]

def SetpText.numbers (c : SetpText) : List SetpNumber :=
  c.ip.numbers ++ c.mask.numbers ++ c.gatway.numbers

/-- The first `AT+SETP=` of the buffer is followed by these numbers. -/
def SetpText.Given (c : SetpText) (p pre : List UInt8) : Prop :=
  ∃ post, First AT_SETP p pre (c.octets ++ post)

/-- The configuration is set to the numbers of the command, and else all is left as it is. -/
structure SetsNetConfig (p : List UInt8) : Prop where
  set : ∀ c pre, SetpText.Given c p pre → ∀ s, ∃ ret s', cmd_handle_usart5 p s = some (ret, s') ∧
    s'.net.netif.Denotes c.config ∧
    s'.net.TS_FDS.ts_local_ipaddr = ⟨c.config.ip.word, c.config.mask.word, c.config.gatway.word⟩
  other : (∀ c pre, ¬ SetpText.Given c p pre) → ∀ s, ∃ ret, cmd_handle_usart5 p s = some (ret, s)

/-- The string in the buffer holds the command, and no number is longer than its buffer. -/
def SetpAccepted (p : List UInt8) : Prop :=
  ∃ c pre, SetpText.Given c p pre ∧ 0 ∉ pre ∧ ∀ n ∈ c.numbers, n.digits.length ≤ 4

/-- The string holds no command for the mode, and of this one at most the beginning: the first
    number is too long already. -/
structure SetpIgnored (p : List UInt8) : Prop where
  none_given : ∀ c pre, ¬ SetpText.Given c p pre
  no_master : ¬ InString E1_MASTER p
  no_slave : ¬ InString E1_SLAVE p
  cut : ∀ pre text, First AT_SETP p pre text → 0 ∉ pre → 5 ≤ text.length ∧ ascii ',' ∉ text.take 5

/-! ## One number -/

variable {stop : UInt8} {rest buff : List UInt8}

/-- A number of at most four digits is copied. -/
theorem scanNumber_text (hstop : ∀ d, octet d ≠ stop) (ds : List (Fin 10))
    (h : buff.length + ds.length ≤ 4) :
    scanNumber stop (text ds ++ stop :: rest) buff = some (some (buff ++ text ds, rest)) := by
  induction ds generalizing buff with
  | nil =>
    show scanNumber stop (stop :: rest) buff = some (some (buff ++ [], rest))
    rw [scanNumber, if_pos rfl, List.append_nil]
  | cons d ds ih =>
    rw [List.length_cons] at h
    show scanNumber stop (octet d :: (text ds ++ stop :: rest)) buff = _
    rw [scanNumber, if_neg (hstop d), if_neg (by omega), ih (by
      rw [List.length_append, List.length_singleton]
      omega), List.append_assoc]
    rfl

/-- The loop gives up if none of the first five octets is the separator. -/
theorem scanNumber_long {txt : List UInt8} (hbuff : buff.length ≤ 4)
    (hlength : 5 - buff.length ≤ txt.length) (hstop : stop ∉ txt.take (5 - buff.length)) :
    scanNumber stop txt buff = some none := by
  induction txt generalizing buff with
  | nil =>
    rw [List.length_nil] at hlength
    omega
  | cons c txt ih =>
    -- an octet that is stored leaves room for one less
    obtain ⟨k, hk⟩ : ∃ k, 5 - buff.length = k + 1 := ⟨4 - buff.length, by omega⟩
    rw [hk, List.take_succ_cons] at hstop
    rw [hk, List.length_cons] at hlength
    obtain ⟨hne, hrest⟩ := List.ne_and_not_mem_of_not_mem_cons hstop
    rw [scanNumber, if_neg hne.symm]
    by_cases hfull : buff.length + 1 ≥ 5
    · exact if_pos hfull
    · have hnext : (buff ++ [c]).length = buff.length + 1 := by
        rw [List.length_append, List.length_singleton]
      have hleft : 5 - (buff ++ [c]).length = k := by omega
      rw [if_neg hfull]
      refine ih (by omega) (by omega) ?_
      rw [hleft]
      exact hrest

/-- Otherwise it runs into the separator or leaves the buffer. -/
theorem scanNumber_of_some_none {txt : List UInt8} (hbuff : buff.length ≤ 4)
    (h : scanNumber stop txt buff = some none) :
    5 - buff.length ≤ txt.length ∧ stop ∉ txt.take (5 - buff.length) := by
  induction txt generalizing buff with
  | nil => exact absurd h (Option.some_ne_none _).symm
  | cons c txt ih =>
    obtain ⟨k, hk⟩ : ∃ k, 5 - buff.length = k + 1 := ⟨4 - buff.length, by omega⟩
    rw [scanNumber] at h
    by_cases hc : c = stop
    · rw [if_pos hc] at h
      exact absurd (Option.some.inj h) (Option.some_ne_none _)
    · rw [if_neg hc] at h
      rw [hk, List.take_succ_cons, List.length_cons]
      -- the fifth octet without a separator is the last one looked at
      by_cases hfull : buff.length + 1 ≥ 5
      · obtain rfl : k = 0 := by omega
        refine ⟨by omega, ?_⟩
        rw [List.take_zero]
        intro hmem
        exact hc (List.mem_singleton.mp hmem).symm
      · have hnext : (buff ++ [c]).length = buff.length + 1 := by
          rw [List.length_append, List.length_singleton]
        have hleft : 5 - (buff ++ [c]).length = k := by omega
        rw [if_neg hfull] at h
        obtain ⟨hlength, hrest⟩ := ih (by omega) h
        rw [hleft] at hlength hrest
        exact ⟨by omega, List.not_mem_cons_of_ne_of_not_mem (Ne.symm hc) hrest⟩

/-! ## Twelve numbers -/

/-- Numbers, each with its separator. -/
def printNumbers : (ns : List SetpNumber) → (stops : List UInt8) → List UInt8
  | n :: ns, stop :: stops => n.octets ++ stop :: printNumbers ns stops
  | _, _ => []

/-- The variables from `k` on with these numbers. -/
def assignNumbers : (ns : List SetpNumber) → (k : Nat) → (netif_ip : Nat → UInt8) → Nat → UInt8
  | [], _, netif_ip => netif_ip
  | n :: ns, k, netif_ip => assignNumbers ns (k + 1) (Function.update netif_ip k n.octet)

variable {ns : List SetpNumber} {stops : List UInt8} {netif_ip : Nat → UInt8} {k : Nat}

theorem scanNumber_octets (hstop : ∀ d, octet d ≠ stop) (n : SetpNumber) (h : n.digits.length ≤ 4) :
    scanNumber stop (n.octets ++ stop :: rest) [] = some (some (n.octets, rest)) :=
  scanNumber_text hstop n.digits (by rw [List.length_nil]; omega)

theorem SetpNumber.atoi (n : SetpNumber) : UInt8.ofInt (CString.atoi n.octets) = n.octet := by
  have hlt := n.value_lt
  have hvalue := atoi_text n.digits_ne
  unfold SetpNumber.octets SetpNumber.octet
  rw [hvalue, UInt8.ofInt, ← UInt8.toNat_inj, UInt8.toNat_ofNat', UInt8.toNat_ofNat']
  omega

/-- Short numbers are all assigned. -/
theorem scanNumbers_print (hstops : ∀ stop ∈ stops, ∀ d, octet d ≠ stop)
    (hlength : ns.length = stops.length) (hshort : ∀ n ∈ ns, n.digits.length ≤ 4) :
    scanNumbers stops k (printNumbers ns stops ++ rest) netif_ip =
      some (assignNumbers ns k netif_ip, true) := by
  induction stops generalizing ns k netif_ip with
  | nil =>
    obtain rfl := List.length_eq_zero_iff.mp hlength
    rfl
  | cons stop stops ih =>
    match ns with
    | [] => exact absurd hlength.symm (Nat.succ_ne_zero _)
    | n :: ns =>
      show scanNumbers (stop :: stops) k ((n.octets ++ stop :: printNumbers ns stops) ++ rest) netif_ip = _
      rw [List.append_assoc, List.cons_append, scanNumbers,
        scanNumber_octets (hstops stop List.mem_cons_self) n (hshort n List.mem_cons_self)]
      simp only [Option.bind_eq_bind, Option.bind_some]
      rw [n.atoi]
      exact ih (fun stop hstop => hstops stop (List.mem_cons_of_mem _ hstop))
        (Nat.succ.inj hlength) fun n hn => hshort n (List.mem_cons_of_mem _ hn)

/-- A long number ends the command. -/
theorem scanNumbers_long (hstops : ∀ stop ∈ stops, ∀ d, octet d ≠ stop)
    (hlength : ns.length = stops.length) (hlong : ¬ ∀ n ∈ ns, n.digits.length ≤ 4) :
    ∃ netif_ip', scanNumbers stops k (printNumbers ns stops ++ rest) netif_ip =
      some (netif_ip', false) := by
  induction stops generalizing ns k netif_ip with
  | nil =>
    obtain rfl := List.length_eq_zero_iff.mp hlength
    exact absurd (fun n hn => absurd hn List.not_mem_nil) hlong
  | cons stop stops ih =>
    match ns with
    | [] => exact absurd hlength.symm (Nat.succ_ne_zero _)
    | n :: ns =>
      have hstop := hstops stop List.mem_cons_self
      show ∃ netif_ip', scanNumbers (stop :: stops) k
        ((n.octets ++ stop :: printNumbers ns stops) ++ rest) netif_ip = _
      rw [List.append_assoc, List.cons_append, scanNumbers]
      -- the first long number ends the command, whatever stands behind it
      by_cases hn : n.digits.length ≤ 4
      · rw [scanNumber_octets hstop n hn]
        simp only [Option.bind_eq_bind, Option.bind_some]
        refine ih (fun stop hstop => hstops stop (List.mem_cons_of_mem _ hstop))
          (Nat.succ.inj hlength) fun hall => hlong fun m hm => ?_
        rcases List.mem_cons.mp hm with rfl | hm
        · exact hn
        · exact hall m hm
      · have hoctets : n.octets.length = n.digits.length := text_length _
        have hscan : scanNumber stop (n.octets ++ stop :: (printNumbers ns stops ++ rest)) [] =
            some none := by
          refine scanNumber_long (Nat.zero_le 4) ?_ ?_
          · rw [List.length_nil, List.length_append]
            omega
          · rw [List.length_nil, List.take_append_of_le_length (by omega)]
            intro hmem
            obtain ⟨d, -, heq⟩ := List.mem_map.mp (List.mem_of_mem_take hmem)
            exact hstop d heq
        rw [hscan]
        exact ⟨netif_ip, rfl⟩

/-- The loops from variable `k` on leave those before it. -/
theorem scanNumbers_other {txt : List UInt8} {netif_ip' : Nat → UInt8} {done : Bool}
    (h : scanNumbers stops k txt netif_ip = some (netif_ip', done)) {j : Nat} (hj : j < k) :
    netif_ip' j = netif_ip j := by
  induction stops generalizing k txt netif_ip with
  | nil => rw [← (Prod.mk.inj (Option.some.inj h)).1]
  | cons stop stops ih =>
    rw [scanNumbers] at h
    match hscan : scanNumber stop txt [] with
    | none =>
      rw [hscan] at h
      exact absurd h (Option.some_ne_none _).symm
    | some none =>
      rw [hscan] at h
      rw [← (Prod.mk.inj (Option.some.inj h)).1]
    | some (some (buff, txt')) =>
      rw [hscan] at h
      rw [ih h (by omega)]
      exact Function.update_of_ne (by omega) _ _

/-! ## The commands for the mode -/

variable {p : List UInt8}

/-- Without a zero the buffer is left. -/
theorem cmdModes_none (h : 0 ∉ p) (s : Usart5) : cmdModes p s = none := by
  have hsome : ∀ {str}, strstr str p ≠ some none := fun heq => h (not_inString_of_strstr heq).1
  unfold cmdModes
  match hmaster : strstr E1_MASTER p with
  | none => rfl
  | some none => exact absurd hmaster hsome
  | some (some _) =>
    match hslave : strstr E1_SLAVE p with
    | none => rfl
    | some none => exact absurd hslave hsome
    | some (some _) =>
      simp only [Option.bind_eq_bind, Option.bind_some]
      rw [strlen_eq_none h]
      rfl

/-- What the commands for the mode do to the variables. -/
structure ModesRun (p : List UInt8) (s s' : Usart5) : Prop where
  netif_ip : s'.netif_ip = s.netif_ip
  netif : s'.net.netif = s.net.netif
  stored : s'.net.TS_FDS.ts_local_ipaddr = s.net.TS_FDS.ts_local_ipaddr
  unchanged : ¬ InString E1_MASTER p → ¬ InString E1_SLAVE p → s' = s
  changed : InString E1_MASTER p ∨ InString E1_SLAVE p →
    s'.net.TS_FDS.PTP_MODE = .emPTPMaster ∨ s'.net.TS_FDS.PTP_MODE = .emPTPSlave

theorem strlen_ne_none (h : 0 ∈ p) : ∃ n, strlen p = some n := by
  induction p with
  | nil => exact absurd h List.not_mem_nil
  | cons c p ih =>
    rw [strlen]
    by_cases hc : c = 0
    · exact ⟨0, if_pos hc⟩
    · obtain ⟨n, hn⟩ := ih ((List.mem_cons.mp h).resolve_left (Ne.symm hc))
      rw [if_neg hc, hn]
      exact ⟨n + 1, rfl⟩

theorem cmdModes_some (h : 0 ∈ p) (s : Usart5) :
    ∃ ret s', cmdModes p s = some (ret, s') ∧ ModesRun p s s' := by
  obtain ⟨n, hn⟩ := strlen_ne_none h
  have hsystem : ∃ found, strstr AT_SYSTEM p = some found :=
    Option.ne_none_iff_exists'.mp (strstr_ne_none h)
  obtain ⟨found, hfound⟩ := hsystem
  unfold cmdModes
  -- a later command of the same string overrides the mode of an earlier one
  by_cases hmaster : InString E1_MASTER p
  · obtain ⟨q, hq⟩ := hmaster.strstr h
    rw [hq]
    simp only [Option.bind_eq_bind, Option.bind_some]
    by_cases hslave : InString E1_SLAVE p
    · obtain ⟨r, hr⟩ := hslave.strstr h
      rw [hr]
      simp only [Option.bind_some]
      rw [hn, hfound]
      cases found <;> exact ⟨_, _, rfl, rfl, rfl, rfl, fun hnot => absurd hmaster hnot, fun _ => .inr rfl⟩
    · rw [strstr_of_not_inString h hslave]
      simp only [Option.bind_some, Option.pure_def]
      rw [hfound]
      cases found <;> exact ⟨_, _, rfl, rfl, rfl, rfl, fun hnot => absurd hmaster hnot, fun _ => .inl rfl⟩
  · rw [strstr_of_not_inString h hmaster]
    simp only [Option.bind_eq_bind, Option.bind_some]
    by_cases hslave : InString E1_SLAVE p
    · obtain ⟨r, hr⟩ := hslave.strstr h
      rw [hr]
      simp only [Option.bind_some]
      rw [hn, hfound]
      cases found <;>
        exact ⟨_, _, rfl, rfl, rfl, rfl, fun _ hnot => absurd hslave hnot, fun _ => .inr rfl⟩
    · rw [strstr_of_not_inString h hslave]
      simp only [Option.bind_some, Option.pure_def]
      rw [hfound]
      have hnone : ¬ (InString E1_MASTER p ∨ InString E1_SLAVE p) := by
        rintro (hin | hin)
        · exact hmaster hin
        · exact hslave hin
      cases found <;> exact ⟨_, _, rfl, rfl, rfl, rfl, fun _ _ => rfl, fun hin => absurd hin hnone⟩

/-! ## The whole function -/

variable {pre txt : List UInt8}

theorem usart5_none (hlength : p.length = 512) (h : 0 ∉ p) (s : Usart5) :
    cmd_handle_usart5 p s = none := by
  unfold cmd_handle_usart5
  rw [List.take_of_length_le hlength.le]
  dsimp only
  rw [cmdModes_none h]
  rfl

/-- A command in the string is carried out after those for the mode. -/
theorem usart5_command (hlength : p.length = 512) (h0 : 0 ∈ p) (h : First AT_SETP p pre txt)
    (hpre : 0 ∉ pre) (s : Usart5) :
    ∃ s', ModesRun p s s' ∧ cmd_handle_usart5 p s = cmdSetp txt s' := by
  obtain ⟨ret, s', hmodes, hrun⟩ := cmdModes_some h0 s
  refine ⟨s', hrun, ?_⟩
  unfold cmd_handle_usart5
  rw [List.take_of_length_le hlength.le]
  dsimp only
  rw [hmodes]
  simp only [Option.bind_eq_bind, Option.bind_some]
  rw [h.strstr hpre h0]
  simp only [Option.bind_some]
  rw [List.drop_left]

/-- Else those for the mode are all there is. -/
theorem usart5_other (hlength : p.length = 512) (h0 : 0 ∈ p) (h : ¬ InString AT_SETP p)
    (s : Usart5) : ∃ ret s', cmd_handle_usart5 p s = some (ret, s') ∧ ModesRun p s s' := by
  obtain ⟨ret, s', hmodes, hrun⟩ := cmdModes_some h0 s
  obtain ⟨found, hfound⟩ := Option.ne_none_iff_exists'.mp (strstr_ne_none (s := AT_E1SHOW) h0)
  have hresult : ∃ ret, cmd_handle_usart5 p s = some (ret, s') := by
    unfold cmd_handle_usart5
    rw [List.take_of_length_le hlength.le]
    dsimp only
    rw [hmodes]
    simp only [Option.bind_eq_bind, Option.bind_some]
    rw [strstr_of_not_inString h0 h]
    simp only [Option.bind_some]
    rw [hfound]
    cases found <;> exact ⟨_, rfl⟩
  obtain ⟨ret', hret⟩ := hresult
  exact ⟨ret', s', hret, hrun⟩

/-! ## The network command -/

section Setp

variable {c : SetpText} {s s' : Usart5} {ret : UInt8} (post : List UInt8)

theorem setpStops_octet : ∀ stop ∈ setpStops, ∀ d, octet d ≠ stop := by
  have hall : setpStops.all (fun stop => decide (∀ d, octet d ≠ stop)) = true := by decide
  intro stop hstop
  exact of_decide_eq_true (List.all_eq_true.mp hall stop hstop)

theorem SetpText.octets_eq (c : SetpText) : c.octets = printNumbers c.numbers setpStops := by
  have hstops : setpStops = [ascii ',', ascii ',', ascii ',', ascii '/', ascii ',', ascii ',',
      ascii ',', ascii '/', ascii ',', ascii ',', ascii ',', ascii '/'] := rfl
  rw [hstops]
  unfold SetpText.octets SetpQuad.octets SetpText.numbers SetpQuad.numbers
  simp only [List.cons_append, List.nil_append, List.append_assoc, printNumbers]

theorem SetpText.numbers_length (c : SetpText) : c.numbers.length = setpStops.length := rfl

theorem SetpText.config_eq (c : SetpText) (netif_ip : Nat → UInt8) :
    setpConfig (assignNumbers c.numbers 0 netif_ip) = c.config := rfl

theorem scanNumbers_short (hshort : ∀ n ∈ c.numbers, n.digits.length ≤ 4) (netif_ip : Nat → UInt8) :
    scanNumbers setpStops 0 (c.octets ++ post) netif_ip =
      some (assignNumbers c.numbers 0 netif_ip, true) := by
  rw [c.octets_eq]
  exact scanNumbers_print setpStops_octet c.numbers_length hshort

theorem scanNumbers_not_short (hlong : ¬ ∀ n ∈ c.numbers, n.digits.length ≤ 4)
    (netif_ip : Nat → UInt8) :
    ∃ netif_ip', scanNumbers setpStops 0 (c.octets ++ post) netif_ip = some (netif_ip', false) := by
  rw [c.octets_eq]
  exact scanNumbers_long setpStops_octet c.numbers_length hlong

/-- The configuration is set, or the stored one is left. -/
theorem cmdSetp_short (hshort : ∀ n ∈ c.numbers, n.digits.length ≤ 4) (s : Usart5) :
    cmdSetp (c.octets ++ post) s = some (UDP_CONNET,
      ⟨assignNumbers c.numbers 0 s.netif_ip, setNetConfig c.config s.net⟩) := by
  unfold cmdSetp
  rw [scanNumbers_short post hshort]
  rfl

theorem cmdSetp_not_short (hlong : ¬ ∀ n ∈ c.numbers, n.digits.length ≤ 4) (s : Usart5) :
    ∃ ret s', cmdSetp (c.octets ++ post) s = some (ret, s') ∧
      s'.net.TS_FDS.ts_local_ipaddr = s.net.TS_FDS.ts_local_ipaddr := by
  obtain ⟨netif_ip', hscan⟩ := scanNumbers_not_short post hlong s.netif_ip
  unfold cmdSetp
  rw [hscan]
  exact ⟨IP_ERROR, _, rfl, rfl⟩

theorem cmdSetp_mode (h : cmdSetp txt s = some (ret, s')) :
    s'.net.TS_FDS.PTP_MODE = s.net.TS_FDS.PTP_MODE := by
  unfold cmdSetp at h
  match hscan : scanNumbers setpStops 0 txt s.netif_ip with
  | none =>
    rw [hscan] at h
    exact absurd h (Option.some_ne_none _).symm
  | some (netif_ip', true) =>
    rw [hscan] at h
    rw [← (Prod.mk.inj (Option.some.inj h)).2]
    rfl
  | some (netif_ip', false) =>
    rw [hscan] at h
    rw [← (Prod.mk.inj (Option.some.inj h)).2]

/-- Once the first separator is reached the first variable is assigned. -/
theorem cmdSetp_first {buff : List UInt8} (hscan : scanNumber (ascii ',') txt [] = some (some (buff, rest)))
    (h : cmdSetp txt s = some (ret, s')) : s'.netif_ip 0 = .ofInt (atoi buff) := by
  have hstops : setpStops = ascii ',' :: setpStops.tail := rfl
  have hnumbers : scanNumbers setpStops 0 txt s.netif_ip =
      scanNumbers setpStops.tail 1 rest (Function.update s.netif_ip 0 (.ofInt (atoi buff))) := by
    rw [hstops, scanNumbers, hscan]
    rfl
  unfold cmdSetp at h
  rw [hnumbers] at h
  -- the loops behind the first one leave its variable
  match hrest : scanNumbers setpStops.tail 1 rest (Function.update s.netif_ip 0 (.ofInt (atoi buff))) with
  | none =>
    rw [hrest] at h
    exact absurd h (Option.some_ne_none _).symm
  | some (netif_ip', done) =>
    have hfirst := scanNumbers_other hrest (Nat.zero_lt_one)
    rw [Function.update_self] at hfirst
    rw [hrest] at h
    cases done
    · rw [← (Prod.mk.inj (Option.some.inj h)).2]
      exact hfirst
    · rw [← (Prod.mk.inj (Option.some.inj h)).2]
      exact hfirst

/-- A command for the mode leaves its mode behind. -/
theorem usart5_mode (hlength : p.length = 512) (h0 : 0 ∈ p)
    (hmode : InString E1_MASTER p ∨ InString E1_SLAVE p)
    (h : cmd_handle_usart5 p s = some (ret, s')) :
    s'.net.TS_FDS.PTP_MODE = .emPTPMaster ∨ s'.net.TS_FDS.PTP_MODE = .emPTPSlave := by
  by_cases hsetp : InString AT_SETP p
  · obtain ⟨q, hq⟩ := hsetp.strstr h0
    obtain ⟨pre, txt, hfirst, hpre, -⟩ := First.of_strstr hq
    obtain ⟨s₁, hrun, hcmd⟩ := usart5_command hlength h0 hfirst hpre s
    rw [hcmd] at h
    rw [cmdSetp_mode h]
    exact hrun.changed hmode
  · obtain ⟨ret₁, s₁, hcmd, hrun⟩ := usart5_other hlength h0 hsetp s
    rw [hcmd] at h
    rw [← (Prod.mk.inj (Option.some.inj h)).2]
    exact hrun.changed hmode

/-- Two readings of the same text have the same numbers. -/
theorem SetpText.config_unique {c' : SetpText} {post post' : List UInt8}
    (hshort : ∀ n ∈ c.numbers, n.digits.length ≤ 4) (h : c'.octets ++ post' = c.octets ++ post) :
    (∀ n ∈ c'.numbers, n.digits.length ≤ 4) ∧ c'.config = c.config := by
  have hscan := scanNumbers_short post hshort (fun _ => 0)
  rw [← h] at hscan
  have hshort' : ∀ n ∈ c'.numbers, n.digits.length ≤ 4 := by
    by_contra hlong
    obtain ⟨netif_ip', hcut⟩ := scanNumbers_not_short post' hlong (fun _ => 0)
    have hdone := (Prod.mk.inj (Option.some.inj (hcut.symm.trans hscan))).2
    exact Bool.false_ne_true hdone
  have hscan' := scanNumbers_short post' hshort' (fun _ => 0)
  have hsame := (Prod.mk.inj (Option.some.inj (hscan'.symm.trans hscan))).1
  exact ⟨hshort', by rw [← c'.config_eq fun _ => 0, ← c.config_eq fun _ => 0, hsame]⟩

theorem SetpAccepted.sets (hlength : p.length = 512) (h0 : 0 ∈ p) (h : SetpAccepted p) :
    SetsNetConfig p := by
  obtain ⟨c, pre, ⟨post, hfirst⟩, hpre, hshort⟩ := h
  refine ⟨fun c' pre' hgiven s => ?_, fun hnone => absurd ⟨post, hfirst⟩ (hnone c pre)⟩
  obtain ⟨post', hfirst'⟩ := hgiven
  obtain ⟨rfl, htext⟩ := hfirst.unique hfirst'
  obtain ⟨hshort', hconfig⟩ := SetpText.config_unique hshort htext
  obtain ⟨s₁, hrun, hcmd⟩ := usart5_command hlength h0 hfirst' hpre s
  refine ⟨UDP_CONNET, _, hcmd.trans (cmdSetp_short post' hshort' s₁), ?_, rfl⟩
  exact ⟨IpQuad.of_IP4_ADDR _, IpQuad.of_IP4_ADDR _, IpQuad.of_IP4_ADDR _⟩

theorem SetpIgnored.sets (hlength : p.length = 512) (h0 : 0 ∈ p) (h : SetpIgnored p) :
    SetsNetConfig p := by
  refine ⟨fun c pre hgiven => absurd hgiven (h.none_given c pre), ?_⟩
  intro _ s
  by_cases hsetp : InString AT_SETP p
  · obtain ⟨q, hq⟩ := hsetp.strstr h0
    obtain ⟨pre, txt, hfirst, hpre, -⟩ := First.of_strstr hq
    obtain ⟨s₁, hrun, hcmd⟩ := usart5_command hlength h0 hfirst hpre s
    obtain ⟨hlong, hcut⟩ := h.cut pre txt hfirst hpre
    have hscan : scanNumber (ascii ',') txt [] = some none := scanNumber_long (Nat.zero_le 4) hlong hcut
    refine ⟨IP_ERROR, hcmd.trans ?_⟩
    have hstops : setpStops = ascii ',' :: setpStops.tail := rfl
    unfold cmdSetp
    rw [hrun.unchanged h.no_master h.no_slave, hstops, scanNumbers, hscan]
    rfl
  · obtain ⟨ret, s₁, hcmd, hrun⟩ := usart5_other hlength h0 hsetp s
    rw [hrun.unchanged h.no_master h.no_slave] at hcmd
    exact ⟨ret, hcmd⟩

/-- A configuration other than that of the command. -/
def otherState (c : SetpText) : Usart5 :=
  ⟨fun _ => 0, ⟨⟨⟨c.config.ip.word + 1, 0, 0⟩, .emPTPSlave⟩, default⟩⟩

theorem otherState_stored (c : SetpText) :
    (otherState c).net.TS_FDS.ts_local_ipaddr ≠
      ⟨c.config.ip.word, c.config.mask.word, c.config.gatway.word⟩ := by
  intro heq
  have hword : c.config.ip.word + 1 = c.config.ip.word := congrArg TsIP.ui_ip heq
  have hlt := c.config.ip.word.toNat_lt
  have hone : (1 : UInt32).toNat = 1 := rfl
  rw [← UInt32.toNat_inj, UInt32.toNat_add] at hword
  omega

theorem SetsNetConfig.accepted (hlength : p.length = 512) (h0 : 0 ∈ p) (h : SetsNetConfig p)
    (hgiven : c.Given p pre) : SetpAccepted p := by
  obtain ⟨post, hfirst⟩ := hgiven
  obtain ⟨ret, s', hcmd, -, hstored⟩ := h.set c pre ⟨post, hfirst⟩ (otherState c)
  -- in both cases the stored configuration would be left
  have hpre : 0 ∉ pre := by
    intro hpre
    obtain ⟨ret₁, s₁, hcmd₁, hrun⟩ := usart5_other hlength h0 (hfirst.not_inString hpre) (otherState c)
    have hsame := (Prod.mk.inj (Option.some.inj (hcmd₁.symm.trans hcmd))).2
    rw [← hsame, hrun.stored] at hstored
    exact otherState_stored c hstored
  refine ⟨c, pre, ⟨post, hfirst⟩, hpre, ?_⟩
  by_contra hlong
  obtain ⟨s₁, hrun, hcmd₁⟩ := usart5_command hlength h0 hfirst hpre (otherState c)
  obtain ⟨ret₂, s₂, hcmd₂, hkept⟩ := cmdSetp_not_short post hlong s₁
  have hsame := (Prod.mk.inj (Option.some.inj ((hcmd₁.trans hcmd₂).symm.trans hcmd))).2
  rw [← hsame, hkept, hrun.stored] at hstored
  exact otherState_stored c hstored

theorem SetsNetConfig.ignored (hlength : p.length = 512) (h0 : 0 ∈ p) (h : SetsNetConfig p)
    (hnone : ∀ c pre, ¬ SetpText.Given c p pre) : SetpIgnored p := by
  have hmode : ¬ (InString E1_MASTER p ∨ InString E1_SLAVE p) := by
    intro hin
    let s : Usart5 := ⟨fun _ => 0, ⟨⟨default, .emNTPSlave⟩, default⟩⟩
    obtain ⟨ret, hcmd⟩ := h.other hnone s
    rcases usart5_mode hlength h0 hin hcmd with hmaster | hslave
    · exact absurd hmaster (by decide)
    · exact absurd hslave (by decide)
  refine ⟨hnone, fun hin => hmode (.inl hin), fun hin => hmode (.inr hin), ?_⟩
  intro pre txt hfirst hpre
  match hscan : scanNumber (ascii ',') txt [] with
  | none =>
    -- the buffer is left
    obtain ⟨ret, hcmd⟩ := h.other hnone ⟨fun _ => 0, ⟨⟨default, .emNTPSlave⟩, default⟩⟩
    obtain ⟨s₁, -, hcmd₁⟩ := usart5_command hlength h0 hfirst hpre
      ⟨fun _ => 0, ⟨⟨default, .emNTPSlave⟩, default⟩⟩
    have hstops : setpStops = ascii ',' :: setpStops.tail := rfl
    have hleft : cmdSetp txt s₁ = none := by
      unfold cmdSetp
      rw [hstops, scanNumbers, hscan]
      rfl
    exact absurd (hcmd.symm.trans (hcmd₁.trans hleft)) (Option.some_ne_none _)
  | some none => exact scanNumber_of_some_none (show ([] : List UInt8).length ≤ 4 from Nat.zero_le 4) hscan
  | some (some (buff, rest)) =>
    -- the first variable is assigned, whatever it was
    let s : Usart5 := ⟨fun _ => .ofInt (atoi buff) + 1, ⟨⟨default, .emNTPSlave⟩, default⟩⟩
    obtain ⟨ret, hcmd⟩ := h.other hnone s
    obtain ⟨s₁, -, hcmd₁⟩ := usart5_command hlength h0 hfirst hpre s
    have hassigned : UInt8.ofInt (atoi buff) + 1 = .ofInt (atoi buff) :=
      cmdSetp_first hscan (hcmd₁.symm.trans hcmd)
    have hlt := (UInt8.ofInt (atoi buff)).toNat_lt
    have hone : (1 : UInt8).toNat = 1 := rfl
    rw [← UInt8.toNat_inj, UInt8.toNat_add] at hassigned
    omega

end Setp

/-- **The command sets what it says** and nothing else exactly if the buffer holds a string that
    gives it in full, with short numbers, or that breaks off with the first number. -/
theorem usart5_sets_iff (p : List UInt8) (hlength : p.length = 512) :
    SetsNetConfig p ↔ 0 ∈ p ∧ (SetpAccepted p ∨ SetpIgnored p) := by
  constructor
  · intro h
    -- without a terminator the search for the first command leaves the buffer
    have h0 : 0 ∈ p := by
      by_contra h0
      let s : Usart5 := ⟨fun _ => 0, ⟨⟨default, .emPTPSlave⟩, default⟩⟩
      have hleft := usart5_none hlength h0 s
      by_cases hgiven : ∃ c pre, SetpText.Given c p pre
      · obtain ⟨c, pre, hgiven⟩ := hgiven
        obtain ⟨ret, s', hcmd, -⟩ := h.set c pre hgiven s
        exact absurd (hcmd.symm.trans hleft) (Option.some_ne_none _)
      · obtain ⟨ret, hcmd⟩ := h.other (fun c pre hc => hgiven ⟨c, pre, hc⟩) s
        exact absurd (hcmd.symm.trans hleft) (Option.some_ne_none _)
    refine ⟨h0, ?_⟩
    by_cases hgiven : ∃ c pre, SetpText.Given c p pre
    · obtain ⟨c, pre, hgiven⟩ := hgiven
      exact .inl (h.accepted hlength h0 hgiven)
    · exact .inr (h.ignored hlength h0 fun c pre hc => hgiven ⟨c, pre, hc⟩)
  · rintro ⟨h0, haccepted | hignored⟩
    · exact haccepted.sets hlength h0
    · exact hignored.sets hlength h0

/-- Octets at the beginning of an empty buffer. -/
def setpBuffer (text : List UInt8) : List UInt8 :=
  AT_SETP ++ (text ++ List.replicate (512 - AT_SETP.length - text.length) 0)

theorem setpBuffer_first (text : List UInt8) :
    First AT_SETP (setpBuffer text) []
      (text ++ List.replicate (512 - AT_SETP.length - text.length) 0) :=
  ⟨rfl, fun _ hk => absurd hk (Nat.not_lt_zero _)⟩

theorem setpBuffer_length {text : List UInt8} (h : text.length < 504) :
    (setpBuffer text).length = 512 := by
  have hsetp : AT_SETP.length = 8 := rfl
  unfold setpBuffer
  rw [List.length_append, List.length_append, List.length_replicate]
  omega

theorem zero_mem_setpBuffer {text : List UInt8} (h : text.length < 504) : 0 ∈ setpBuffer text := by
  have hsetp : AT_SETP.length = 8 := rfl
  refine List.mem_append_right _ (List.mem_append_right _ (List.mem_replicate.mpr ⟨?_, rfl⟩))
  omega

/-- `192,168,31,10/255,255,255,0/192,168,31,1/`. -/
def sampleSetp : SetpText where
  ip := ⟨⟨[1, 9, 2], by decide, by decide⟩, ⟨[1, 6, 8], by decide, by decide⟩,
    ⟨[3, 1], by decide, by decide⟩, ⟨[1, 0], by decide, by decide⟩⟩
  mask := ⟨⟨[2, 5, 5], by decide, by decide⟩, ⟨[2, 5, 5], by decide, by decide⟩,
    ⟨[2, 5, 5], by decide, by decide⟩, ⟨[0], by decide, by decide⟩⟩
  gatway := ⟨⟨[1, 9, 2], by decide, by decide⟩, ⟨[1, 6, 8], by decide, by decide⟩,
    ⟨[3, 1], by decide, by decide⟩, ⟨[1], by decide, by decide⟩⟩

theorem usart5_sets_sample : SetsNetConfig (setpBuffer sampleSetp.octets) :=
  (usart5_sets_iff _ (setpBuffer_length (by decide))).mpr
    ⟨zero_mem_setpBuffer (by decide), .inl ⟨sampleSetp, [], ⟨_, setpBuffer_first _⟩, by decide, by decide⟩⟩

/-- A command without numbers sets the first octet of the address to 0. -/
theorem usart5_assigns_at_once :
    ¬ ∀ p : List UInt8, p.length = 512 → (∃ pre text, First AT_SETP p pre text) →
      SetsNetConfig p := by
  intro h
  have hlength : (setpBuffer [ascii ',']).length = 512 := setpBuffer_length (by decide)
  have hsets := h _ hlength ⟨[], _, setpBuffer_first _⟩
  have hnone : ∀ c pre, ¬ SetpText.Given c (setpBuffer [ascii ',']) pre := by
    rintro c pre ⟨post, hfirst⟩
    -- the text begins with a digit
    obtain ⟨-, htext⟩ := (setpBuffer_first [ascii ',']).unique hfirst
    match hdigits : c.ip.a.digits with
    | [] => exact c.ip.a.digits_ne hdigits
    | d :: ds =>
      have hoctets : c.octets = octet d :: c.octets.tail := by
        have ha : c.ip.a.octets = octet d :: text ds := by
          unfold SetpNumber.octets
          rw [hdigits]
          rfl
        unfold SetpText.octets SetpQuad.octets
        rw [ha]
        rfl
      rw [hoctets] at htext
      have hhead := (List.cons.inj htext).1
      exact setpStops_octet _ (by decide) d hhead
  have hcut := (hsets.ignored hlength (zero_mem_setpBuffer (by decide)) hnone).cut _ _ (setpBuffer_first _) (by decide)
  exact absurd hcut.2 (by decide)

end Ptpd
