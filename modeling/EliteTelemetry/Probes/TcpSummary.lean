/-
  EliteTelemetry.Probes.TcpSummary — the two counts of a namespace's TCP sockets
  (`collectTCPSummary` and `parseStAndQueues` of `proctcpsummary/proctcp.go`, `parseDiagMsgs` of
  `proctcpsummary/sockdiag.go`).

  One is read from the text of `/proc/net/tcp` or `tcp6`: a header, then a row for each socket with
  its number, two addresses, its state and the lengths of its queues in hexadecimal, and more that
  is not read. The other is read from messages of `inet_diag`, by offsets and in the machine's byte
  order. A socket here is what both show of it (`Socket`): a row short enough for the scanner's
  buffer, and a message of at least 72 bytes.

  - `row_scannable`: whatever the state, the queues and the addresses, a row with less than 60000
    bytes of further fields is short enough.
  - `parseStAndQueues_row`: the state and the queues are read back from a row.
  - `countMsg_message`: and from a message.
  - `summaries_agree`: so the two summaries of every list of sockets are equal.
-/

import EliteTelemetry.Lib.HexText
import EliteTelemetry.Lib.LineScanner
import EliteTelemetry.Lib.LittleEndian
import Mathlib.Data.Nat.Digits.Defs

namespace EliteTelemetry.Probes.ProcTcp

open EliteTelemetry.Lib.GoText EliteTelemetry.Lib.HexText EliteTelemetry.Lib.LineScanner
open EliteTelemetry.Lib.LittleEndian (Order slice slice_append)

/-! ## The summary -/

structure TcpSummary where
  established : UInt64
  timeWait : UInt64
  closeWait : UInt64
  synSent : UInt64
  synRecv : UInt64
  txQueue : UInt64
  rxQueue : UInt64
  deriving DecidableEq, Repr

def TcpSummary.zero : TcpSummary := ⟨0, 0, 0, 0, 0, 0, 0⟩

def tcpEstablished : UInt64 := 1
def tcpSynSent : UInt64 := 2
def tcpSynRecv : UInt64 := 3
def tcpTimewait : UInt64 := 6
def tcpCloseWait : UInt64 := 8
def tcpListen : UInt64 := 10

def TcpSummary.count (s : TcpSummary) (st txq rxq : UInt64) : TcpSummary :=
  let s :=
    if st = tcpEstablished then { s with established := s.established + 1 }
    else if st = tcpTimewait then { s with timeWait := s.timeWait + 1 }
    else if st = tcpCloseWait then { s with closeWait := s.closeWait + 1 }
    else if st = tcpSynSent then { s with synSent := s.synSent + 1 }
    else if st = tcpSynRecv then { s with synRecv := s.synRecv + 1 }
    else s
  if st ≠ tcpListen then { s with txQueue := s.txQueue + txq, rxQueue := s.rxQueue + rxq } else s

/-! ## The text -/

inductive LineFault where
  /-- One of the texts `missing st field`, `missing queue field`, `missing rx_queue field`. -/
  | missing (field : String)
  | number (err : NumError)
  deriving DecidableEq, Repr

def isBlank (b : UInt8) : Bool := b = ' '.toUInt8 || b = '\t'.toUInt8

def notBlank (b : UInt8) : Bool := !isBlank b

def notColon (b : UInt8) : Bool := b ≠ ':'.toUInt8

def skipBlanks (line : List UInt8) : List UInt8 := line.dropWhile isBlank

def skipField (line : List UInt8) : List UInt8 := (skipBlanks line).dropWhile notBlank

def parseHex (text : List UInt8) : Except LineFault UInt64 :=
  match parseUint (chars text) 16 64 with
  | (n, none) => .ok (.ofNat n)
  | (_, some err) => .error (.number err)

def parseStAndQueues (line : List UInt8) : Except LineFault (UInt64 × UInt64 × UInt64) := do
  let atState := skipBlanks (skipField (skipField (skipField line)))
  let stText := atState.takeWhile notBlank
  if stText = [] then throw (.missing "missing st field")
  let st ← parseHex stText
  let atQueues := skipBlanks (atState.dropWhile notBlank)
  let atColon := atQueues.dropWhile notColon
  if atColon = [] then throw (.missing "missing queue field")
  let txq ← parseHex (atQueues.takeWhile notColon)
  let rxText := (atColon.drop 1).takeWhile notBlank
  if rxText = [] then throw (.missing "missing rx_queue field")
  let rxq ← parseHex rxText
  return (st, txq, rxq)

def countLine (s : TcpSummary) (line : List UInt8) : TcpSummary :=
  match parseStAndQueues line with
  | .ok (st, txq, rxq) => s.count st txq rxq
  | .error _ => s

/-- The contents of the file, or why it does not open; with the summary, the scanner's error. -/
def collectTCPSummary : Except String (List UInt8) → TcpSummary × Option String
  | .error err => (.zero, some err)
  | .ok content =>
    let scanned := scan content
    ((scanned.1.drop 1).foldl countLine .zero, scanned.2)

/-! ## The messages -/

def inetDiagMsgSize : Nat := 72
def offsetState : Nat := 1
def offsetRQueue : Nat := 56
def offsetWQueue : Nat := 60

def countMsg (o : Order) (s : TcpSummary) (data : List UInt8) : TcpSummary :=
  if data.length < inetDiagMsgSize then s
  else
    let state := data.getD offsetState 0
    let rqueue := o.value (slice data offsetRQueue (offsetRQueue + 4))
    let wqueue := o.value (slice data offsetWQueue (offsetWQueue + 4))
    s.count state.toUInt64 (.ofNat wqueue) (.ofNat rqueue)

def parseDiagMsgs (o : Order) (msgs : List (List UInt8)) : TcpSummary := msgs.foldl (countMsg o) .zero

/-! ## What both show of a socket -/

inductive Addr where
  | v4 (a : UInt32)
  | v6 (a b c d : UInt32)

def Addr.text : Addr → List UInt8
  | .v4 a => hex 8 a.toNat
  | .v6 a b c d => hex 8 a.toNat ++ hex 8 b.toNat ++ hex 8 c.toNat ++ hex 8 d.toNat

structure Endpoint where
  addr : Addr
  port : UInt16

def Endpoint.text (e : Endpoint) : List UInt8 := e.addr.text ++ ':'.toUInt8 :: hex 4 e.port.toNat

def slText (sl : Nat) : List UInt8 :=
  let digits := bytesOf (Nat.toDigits 10 sl)
  List.replicate (4 - digits.length) ' '.toUInt8 ++ (digits ++ [':'.toUInt8])

def stateText (state : UInt8) (txQueue rxQueue : UInt32) (further : List UInt8) : List UInt8 :=
  hex 2 state.toNat ++ (' '.toUInt8 :: (hex 8 txQueue.toNat ++ (':'.toUInt8 :: (hex 8 rxQueue.toNat ++ further))))

def rowText (sl : Nat) (localEnd remoteEnd : Endpoint) (rest : List UInt8) : List UInt8 :=
  slText sl ++ (' '.toUInt8 :: (localEnd.text ++ (' '.toUInt8 :: (remoteEnd.text ++ (' '.toUInt8 :: rest)))))

structure DiagRest where
  family : UInt8
  timer : UInt8
  retrans : UInt8
  id : List UInt8
  id_length : id.length = 48
  expires : UInt32
  uid : UInt32
  inode : UInt32
  attributes : List UInt8

structure Socket where
  sl : Nat
  localEnd : Endpoint
  remoteEnd : Endpoint
  state : UInt8
  txQueue : UInt32
  rxQueue : UInt32
  /-- The further fields of the row, from the blank before them on. -/
  further : List UInt8
  further_blank : ∀ b ∈ further.head?, isBlank b = true
  scannable : Scannable (rowText sl localEnd remoteEnd (stateText state txQueue rxQueue further))
  diag : DiagRest

def Socket.row (s : Socket) : List UInt8 :=
  rowText s.sl s.localEnd s.remoteEnd (stateText s.state s.txQueue s.rxQueue s.further)

def Socket.message (o : Order) (s : Socket) : List UInt8 :=
  [s.diag.family, s.state, s.diag.timer, s.diag.retrans] ++ s.diag.id ++ o.bytes 4 s.diag.expires.toNat ++
    (o.bytes 4 s.rxQueue.toNat ++
      (o.bytes 4 s.txQueue.toNat ++
        (o.bytes 4 s.diag.uid.toNat ++ o.bytes 4 s.diag.inode.toNat ++ s.diag.attributes)))

def procText (header : { line : List UInt8 // Scannable line }) (sockets : List Socket) : List UInt8 :=
  written (header.1 :: sockets.map Socket.row)

/-! ## Every socket has a row -/

theorem newline_not_mem_hex {w n : Nat} : newline ∉ hex w n :=
  fun h => of_mem_hex (P := (· ≠ newline)) (by decide) h rfl

theorem digit_toUInt8_ge {c : Char} (h : c.isDigit = true) : 48 ≤ c.toUInt8.toNat := by
  obtain ⟨hlo, hhi⟩ := Char.isDigit_iff_toNat.mp h
  have hhigh : '9'.toNat < 256 := by decide
  rw [toNat_toUInt8 (Nat.lt_of_le_of_lt hhi hhigh)]
  exact hlo

theorem of_mem_endpoint {P : UInt8 → Prop} (hdigits : ∀ d < 16, P (hexDigit d)) (hcolon : P ':'.toUInt8) {e : Endpoint}
    {b : UInt8} (h : b ∈ e.text) : P b := by
  rcases List.mem_append.mp h with h | h
  · cases haddr : e.addr with
    | v4 a =>
      rw [haddr] at h
      exact of_mem_hex hdigits h
    | v6 w x y z =>
      rw [haddr] at h
      simp only [Addr.text, List.mem_append] at h
      rcases h with ((h | h) | h) | h <;> exact of_mem_hex hdigits h
  · rcases List.mem_cons.mp h with rfl | h
    · exact hcolon
    · exact of_mem_hex hdigits h

theorem endpoint_scannable (e : Endpoint) : newline ∉ e.text ∧ e.text.length ≤ 37 := by
  refine ⟨fun h => of_mem_endpoint (P := (· ≠ newline)) (by decide) (by decide) h rfl, ?_⟩
  unfold Endpoint.text
  cases e.addr with
  | v4 a => simp [Addr.text]
  | v6 a b c d => simp [Addr.text]

theorem sl_scannable {sl : Nat} (hsl : sl < 10 ^ 20) : newline ∉ slText sl ∧ (slText sl).length ≤ 25 := by
  have hlen := Nat.toDigits_length 10 sl 20 (by decide) hsl
  refine ⟨fun h => ?_, ?_⟩
  · unfold slText at h
    rcases List.mem_append.mp h with h | h
    · exact absurd (List.mem_replicate.mp h).2 (by decide)
    rcases List.mem_append.mp h with h | h
    · obtain ⟨c, hc, hnl⟩ := List.mem_map.mp h
      have hge := digit_toUInt8_ge (Nat.isDigit_of_mem_toDigits (by decide) (by decide) hc)
      rw [hnl] at hge
      exact absurd hge (by decide)
    · exact absurd (List.mem_singleton.mp h) (by decide)
  · simp only [slText, bytesOf, List.length_append, List.length_replicate, List.length_map, List.length_singleton]
    omega

theorem row_scannable {sl : Nat} (hsl : sl < 10 ^ 20) (localEnd remoteEnd : Endpoint) (state : UInt8)
    (txQueue rxQueue : UInt32) {further : List UInt8} (hfurther : newline ∉ further) (hlen : further.length < 60000) :
    Scannable (rowText sl localEnd remoteEnd (stateText state txQueue rxQueue further)) := by
  obtain ⟨hslText, hslLen⟩ := sl_scannable hsl
  obtain ⟨hlocal, hlocalLen⟩ := endpoint_scannable localEnd
  obtain ⟨hremote, hremoteLen⟩ := endpoint_scannable remoteEnd
  constructor
  · simp only [rowText, stateText, List.mem_append, List.mem_cons, hslText, hlocal, hremote, newline_not_mem_hex,
      hfurther, or_false, false_or]
    decide
  · simp only [rowText, stateText, List.length_append, List.length_cons, hex_length, maxScanTokenSize]
    omega

/-! ## Reading a row -/

theorem notBlank_of_mem_hex {w n : Nat} {b : UInt8} (h : b ∈ hex w n) : notBlank b = true :=
  of_mem_hex (P := (notBlank · = true)) (by decide) h

theorem notColon_of_mem_hex {w n : Nat} {b : UInt8} (h : b ∈ hex w n) : notColon b = true :=
  of_mem_hex (P := (notColon · = true)) (by decide) h

def Ends (rest : List UInt8) : Prop := ∀ b ∈ rest.head?, isBlank b = true

theorem takeWhile_field {field rest : List UInt8} (hfield : ∀ b ∈ field, notBlank b = true) (hrest : Ends rest) :
    (field ++ rest).takeWhile notBlank = field ∧ (field ++ rest).dropWhile notBlank = rest := by
  rw [List.takeWhile_append_of_pos hfield, List.dropWhile_append_of_pos hfield]
  cases rest with
  | nil => simp
  | cons b rest =>
    have hb : ¬notBlank b = true := by simp [notBlank, hrest b (by simp)]
    rw [List.takeWhile_cons_of_neg hb, List.dropWhile_cons_of_neg hb, List.append_nil]
    exact ⟨rfl, rfl⟩

theorem skipBlanks_append {pad rest : List UInt8} (hpad : ∀ b ∈ pad, isBlank b = true)
    (hrest : ∀ b ∈ rest.head?, notBlank b = true) : skipBlanks (pad ++ rest) = rest := by
  unfold skipBlanks
  rw [List.dropWhile_append_of_pos hpad]
  cases rest with
  | nil => rfl
  | cons b rest =>
    have hb : ¬isBlank b = true := by simpa [notBlank] using hrest b (by simp)
    exact List.dropWhile_cons_of_neg hb

theorem skipField_append {pad field rest : List UInt8} (hpad : ∀ b ∈ pad, isBlank b = true) (hne : field ≠ [])
    (hfield : ∀ b ∈ field, notBlank b = true) (hrest : Ends rest) : skipField (pad ++ (field ++ rest)) = rest := by
  unfold skipField
  rw [skipBlanks_append hpad]
  · exact (takeWhile_field hfield hrest).2
  · intro b hb
    rw [List.head?_append_of_ne_nil _ hne] at hb
    exact hfield b (List.mem_of_head? hb)

theorem ends_space (rest : List UInt8) : Ends (' '.toUInt8 :: rest) := by
  intro b hb
  cases hb
  rfl

theorem blank_space : ∀ b ∈ [' '.toUInt8], isBlank b = true := by
  intro b hb
  rw [List.mem_singleton.mp hb]
  rfl

theorem endpoint_text (e : Endpoint) : e.text ≠ [] ∧ ∀ b ∈ e.text, notBlank b = true :=
  ⟨by simp [Endpoint.text], fun _ h => of_mem_endpoint (P := (notBlank · = true)) (by decide) (by decide) h⟩

theorem notBlank_digit {c : Char} (h : c.isDigit = true) : notBlank c.toUInt8 = true := by
  have hge := digit_toUInt8_ge h
  have hne : ∀ b : UInt8, b.toNat < 48 → c.toUInt8 ≠ b := by
    intro b hb heq
    rw [heq] at hge
    omega
  simp [notBlank, isBlank, hne ' '.toUInt8 (by decide), hne '\t'.toUInt8 (by decide)]

theorem skip_row (sl : Nat) (localEnd remoteEnd : Endpoint) (rest : List UInt8) :
    skipField (skipField (skipField (rowText sl localEnd remoteEnd rest))) = ' '.toUInt8 :: rest := by
  have hsl : skipField (rowText sl localEnd remoteEnd rest) =
      ' '.toUInt8 :: (localEnd.text ++ (' '.toUInt8 :: (remoteEnd.text ++ (' '.toUInt8 :: rest)))) := by
    unfold rowText slText
    rw [List.append_assoc]
    refine skipField_append (fun b hb => ?_) (by simp) (fun b hb => ?_) (ends_space _)
    · rw [(List.mem_replicate.mp hb).2]
      rfl
    · rcases List.mem_append.mp hb with hb | hb
      · obtain ⟨c, hc, rfl⟩ := List.mem_map.mp hb
        exact notBlank_digit (Nat.isDigit_of_mem_toDigits (by decide) (by decide) hc)
      · rw [List.mem_singleton.mp hb]
        decide
  obtain ⟨hlocal, hlocal'⟩ := endpoint_text localEnd
  obtain ⟨hremote, hremote'⟩ := endpoint_text remoteEnd
  rw [hsl]
  rw [← List.singleton_append, skipField_append blank_space hlocal hlocal' (ends_space _)]
  rw [← List.singleton_append, skipField_append blank_space hremote hremote' (ends_space _)]

theorem parseHex_hex {w n : Nat} (hw : 0 < w) (hn : n < 16 ^ w) (hbits : n < 2 ^ 64) :
    parseHex (hex w n) = .ok (.ofNat n) := by
  unfold parseHex
  rw [parseUint_hex hw hn hbits]

theorem hex_ne_nil (w n : Nat) : hex (w + 1) n ≠ [] := by simp [hex]

theorem skipBlanks_hex (w n : Nat) (rest : List UInt8) :
    skipBlanks (' '.toUInt8 :: (hex (w + 1) n ++ rest)) = hex (w + 1) n ++ rest := by
  rw [← List.singleton_append]
  refine skipBlanks_append blank_space fun b hb => ?_
  rw [List.head?_append_of_ne_nil _ (hex_ne_nil w n)] at hb
  exact notBlank_of_mem_hex (List.mem_of_head? hb)

theorem takeWhile_colon (w n : Nat) (rest : List UInt8) :
    (hex w n ++ ':'.toUInt8 :: rest).takeWhile notColon = hex w n ∧
      (hex w n ++ ':'.toUInt8 :: rest).dropWhile notColon = ':'.toUInt8 :: rest := by
  have hcolon : ¬notColon ':'.toUInt8 = true := by decide
  have hhex : ∀ b ∈ hex w n, notColon b = true := fun b hb => notColon_of_mem_hex hb
  rw [List.takeWhile_append_of_pos hhex, List.dropWhile_append_of_pos hhex, List.takeWhile_cons_of_neg hcolon,
    List.dropWhile_cons_of_neg hcolon, List.append_nil]
  exact ⟨rfl, rfl⟩

/-- The state and the queues are read back from a row, whatever is behind them. -/
theorem parseStAndQueues_row (sl : Nat) (localEnd remoteEnd : Endpoint) (state : UInt8) (txQueue rxQueue : UInt32)
    {further : List UInt8} (hfurther : Ends further) :
    parseStAndQueues (rowText sl localEnd remoteEnd (stateText state txQueue rxQueue further)) =
      .ok (.ofNat state.toNat, .ofNat txQueue.toNat, .ofNat rxQueue.toNat) := by
  have hst : parseHex (hex 2 state.toNat) = .ok (.ofNat state.toNat) :=
    parseHex_hex (by decide) state.toNat_lt (Nat.lt_trans state.toNat_lt (by decide))
  have htx : parseHex (hex 8 txQueue.toNat) = .ok (.ofNat txQueue.toNat) :=
    parseHex_hex (by decide) txQueue.toNat_lt (Nat.lt_trans txQueue.toNat_lt (by decide))
  have hrx : parseHex (hex 8 rxQueue.toNat) = .ok (.ofNat rxQueue.toNat) :=
    parseHex_hex (by decide) rxQueue.toNat_lt (Nat.lt_trans rxQueue.toNat_lt (by decide))
  obtain ⟨hstText, hafterSt⟩ := takeWhile_field (fun b (hb : b ∈ hex 2 state.toNat) => notBlank_of_mem_hex hb)
    (ends_space (hex 8 txQueue.toNat ++ (':'.toUInt8 :: (hex 8 rxQueue.toNat ++ further))))
  obtain ⟨htxText, hcolon⟩ := takeWhile_colon 8 txQueue.toNat (hex 8 rxQueue.toNat ++ further)
  obtain ⟨hrxText, -⟩ := takeWhile_field (fun b (hb : b ∈ hex 8 rxQueue.toNat) => notBlank_of_mem_hex hb) hfurther
  unfold parseStAndQueues
  rw [skip_row]
  unfold stateText
  simp only [skipBlanks_hex, hstText, hafterSt, htxText, hcolon, hrxText, List.drop_one, List.tail_cons,
    if_neg (hex_ne_nil _ _), if_neg (List.cons_ne_nil _ _), hst, htx, hrx]
  rfl

theorem rowText_split (sl : Nat) (localEnd remoteEnd : Endpoint) (state : UInt8) (txQueue rxQueue : UInt32) :
    ∃ front, ∀ further, rowText sl localEnd remoteEnd (stateText state txQueue rxQueue further) =
      front ++ (hex 8 rxQueue.toNat ++ further) := by
  refine ⟨rowText sl localEnd remoteEnd (hex 2 state.toNat ++
    (' '.toUInt8 :: (hex 8 txQueue.toNat ++ [':'.toUInt8]))), fun further => ?_⟩
  simp [rowText, stateText]

theorem dropCR_row (s : Socket) :
    ∃ further, Ends further ∧
      dropCR s.row = rowText s.sl s.localEnd s.remoteEnd (stateText s.state s.txQueue s.rxQueue further) := by
  obtain ⟨front, hfront⟩ := rowText_split s.sl s.localEnd s.remoteEnd s.state s.txQueue s.rxQueue
  unfold dropCR Socket.row
  split
  · next hlast =>
    refine ⟨s.further.dropLast, ?_, ?_⟩
    · intro b hb
      have hblank := s.further_blank
      revert hb hblank
      generalize s.further = further
      intro hb hblank
      match further with
      | [] => cases hb
      | [_] => cases hb
      | x :: y :: rest => exact hblank b hb
    · have hne : s.further ≠ [] := by
        intro hnil
        rw [hfront, hnil, List.append_nil, List.getLast?_append_of_ne_nil _ (hex_ne_nil 7 _)] at hlast
        exact of_mem_hex (P := (· ≠ carriageReturn)) (by decide) (List.mem_of_getLast? hlast) rfl
      rw [hfront, hfront, ← List.append_assoc, List.dropLast_append_of_ne_nil hne, List.append_assoc]
  · exact ⟨s.further, s.further_blank, rfl⟩

theorem countLine_row (s : Socket) (t : TcpSummary) :
    countLine t (dropCR s.row) = t.count (.ofNat s.state.toNat) (.ofNat s.txQueue.toNat) (.ofNat s.rxQueue.toNat) := by
  obtain ⟨further, hends, hrow⟩ := dropCR_row s
  unfold countLine
  rw [hrow, parseStAndQueues_row s.sl s.localEnd s.remoteEnd s.state s.txQueue s.rxQueue hends]

/-! ## Reading a message -/

theorem countMsg_message (o : Order) (s : Socket) (t : TcpSummary) :
    countMsg o t (s.message o) =
      t.count (.ofNat s.state.toNat) (.ofNat s.txQueue.toNat) (.ofNat s.rxQueue.toNat) := by
  have hlen : ¬(s.message o).length < inetDiagMsgSize := by
    simp only [Socket.message, List.length_append, s.diag.id_length, Order.bytes_length, inetDiagMsgSize]
    show ¬4 + 48 + 4 + (4 + (4 + (4 + 4 + s.diag.attributes.length))) < 72
    omega
  have hstate : (s.message o).getD offsetState 0 = s.state := rfl
  have hrqueue : slice (s.message o) offsetRQueue (offsetRQueue + 4) = o.bytes 4 s.rxQueue.toNat :=
    slice_append (by simp [s.diag.id_length, offsetRQueue]) (by simp)
  have hwqueue : slice (s.message o) offsetWQueue (offsetWQueue + 4) = o.bytes 4 s.txQueue.toNat := by
    unfold Socket.message
    rw [← List.append_assoc]
    exact slice_append (by simp [s.diag.id_length, offsetWQueue]) (by simp)
  have hrx : o.value (o.bytes 4 s.rxQueue.toNat) = s.rxQueue.toNat := o.value_bytes_of_lt s.rxQueue.toNat_lt
  have htx : o.value (o.bytes 4 s.txQueue.toNat) = s.txQueue.toNat := o.value_bytes_of_lt s.txQueue.toNat_lt
  have hst : UInt64.ofNat s.state.toNat = s.state.toUInt64 := by
    apply UInt64.toNat_inj.mp
    simp
  unfold countMsg
  rw [if_neg hlen]
  simp only [hstate, hrqueue, hwqueue, hrx, htx, hst]

theorem count_rows (o : Order) (sockets : List Socket) (t : TcpSummary) :
    ((sockets.map Socket.row).map dropCR).foldl countLine t =
      (sockets.map (Socket.message o)).foldl (countMsg o) t := by
  induction sockets generalizing t with
  | nil => rfl
  | cons s rest ih =>
    simp only [List.map_cons, List.foldl_cons, countLine_row, countMsg_message]
    exact ih _

/-- The two summaries of every list of sockets are equal, and the scan of the text ends without
    an error. -/
theorem summaries_agree (o : Order) (header : { line : List UInt8 // Scannable line }) (sockets : List Socket) :
    collectTCPSummary (.ok (procText header sockets)) = (parseDiagMsgs o (sockets.map (Socket.message o)), none) := by
  have hlines : ∀ line ∈ header.1 :: sockets.map Socket.row, Scannable line := by
    intro line hline
    rcases List.mem_cons.mp hline with rfl | hline
    · exact header.2
    · obtain ⟨s, -, rfl⟩ := List.mem_map.mp hline
      exact s.scannable
  unfold collectTCPSummary procText
  simp only [scan_written hlines, List.map_cons, List.drop_one, List.tail_cons, count_rows o sockets]
  rfl

def served : Socket where
  sl := 0
  localEnd := ⟨.v4 0x0500000a, 443⟩
  remoteEnd := ⟨.v4 0x0700000a, 51234⟩
  state := 1
  txQueue := 0
  rxQueue := 32
  further := bytesOf " 00:00000000 00000000     0        0 71204".toList
  further_blank := by decide +kernel
  scannable := row_scannable (by decide) _ _ _ _ _ (by decide) (by decide)
  diag :=
    { family := 2, timer := 0, retrans := 0, id := List.replicate 48 0, id_length := rfl, expires := 0, uid := 0
      inode := 71204, attributes := [] }

example (o : Order) : parseDiagMsgs o ([served, served].map (Socket.message o)) =
    { TcpSummary.zero with established := 2, rxQueue := 64 } := by
  cases o <;> decide

end EliteTelemetry.Probes.ProcTcp
