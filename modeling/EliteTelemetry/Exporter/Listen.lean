/-
  EliteTelemetry.Exporter.Listen — the address the exporter listens on
  (`pkg/exporter/security/bind.go` and `createListener` of `pkg/exporter/cmd/server.go`).

  `ValidateListenAddress` refuses an address with a host that can be reached from outside,
  unless `ELITE_ALLOW_PUBLIC_BIND` is 1. It looks for the host in the text that is left when
  `tcp://` and `unix://` are cut off. `createListener` then parses the same text as a URL and
  listens on the host of that. The two read different hosts where the scheme is not in lower
  case, where there is user information, and where something follows a host without a port.

  What is written around the host decides whether the check keeps its promise for every host:
  it does where that is nothing or `tcp://`, and with anything else there is a host that is
  let through (`bind_guard_iff`).
-/

import EliteTelemetry.Lib.Decimal
import EliteTelemetry.Lib.NetAddr

namespace EliteTelemetry.Exporter.Listen

open EliteTelemetry.Lib.Decimal EliteTelemetry.Lib.NetAddr

inductive Refusal where
  /-- The error "refusing to bind %q: use 127.0.0.1 or set ELITE_ALLOW_PUBLIC_BIND=1". -/
  | bind (raw : Text)
  /-- The error "refusing non-loopback bind %q". -/
  | nonLoopback (host : Text)
  deriving DecidableEq, Repr

def hasScheme (raw : Text) : Bool := decide ("://".toList <:+: raw)

/-- What `ValidateListenAddress` takes for host and port. -/
def checkedText (raw : Text) : Text :=
  if hasScheme raw then trimPrefixOf "unix://".toList (trimPrefixOf "tcp://".toList raw) else raw

/-- `ValidateListenAddress`; `allow` is whether `ELITE_ALLOW_PUBLIC_BIND` is 1. -/
def validateListenAddress (allow : Bool) (raw : Text) : Except Refusal Unit :=
  let host := hostPart (checkedText raw)
  if host = [] ∨ host = "0.0.0.0".toList ∨ host = "::".toList then
    if allow then .ok () else .error (.bind raw)
  else
    match parseIP host with
    | none => .ok ()
    | some ip => if isLoopback ip then .ok () else if allow then .ok () else .error (.nonLoopback host)

structure Config where
  address : Text
  port : UInt16
  deriving DecidableEq, Repr

inductive Outcome where
  | error
  /-- It goes on to listen on a unix socket. -/
  | unix
  /-- It calls `net.Listen("tcp", addr)`. -/
  | tcp (addr : Text)
  deriving DecidableEq, Repr

/-- The address with the default for a configuration that has only a port. -/
def Config.effective (cfg : Config) : Option Text :=
  if cfg.address = [] then
    if cfg.port ≠ 0 then some ("127.0.0.1:".toList ++ (toString cfg.port.toNat).toList) else none
  else some cfg.address

def urlText (raw : Text) : Text := if hasScheme raw then raw else "tcp://".toList ++ raw

def dispatch : Option Url → Outcome
  | none => .error
  | some u => if u.scheme = "unix".toList then .unix else if u.scheme = "tcp".toList then .tcp u.host else .error

/-- `createListener`, up to the call of `net.Listen`. -/
def createListener (rejects : Text → Bool) (allow : Bool) (cfg : Config) : Outcome :=
  match cfg.effective with
  | none => .error
  | some raw =>
    match validateListenAddress allow raw with
    | .error _ => .error
    | .ok _ => dispatch (urlParse rejects (urlText raw))

/-! ## What is refused -/

/-- The two texts that are compared are addresses that are not loopback ones either. -/
theorem exposed_of_text {host : Text} (h : host = [] ∨ host = "0.0.0.0".toList ∨ host = "::".toList) :
    Exposed host := by
  rcases h with rfl | rfl | rfl
  · exact .inl rfl
  · decide
  · decide

theorem validate_ok_iff (raw : Text) :
    validateListenAddress false raw = .ok () ↔ ¬ Exposed (hostPart (checkedText raw)) := by
  unfold validateListenAddress
  generalize hostPart (checkedText raw) = host
  simp only
  split
  · rename_i h
    simp [exposed_of_text h]
  · rename_i h
    have hne : host ≠ [] := fun he => h (.inl he)
    cases hip : parseIP host with
    | none => simp [Exposed, hip, hne]
    | some ip => cases hl : isLoopback ip <;> simp [Exposed, hip, hne, hl]

def Dials (rejects : Text → Bool) (raw host : Text) : Prop :=
  urlParse rejects (urlText raw) = some ⟨"tcp".toList, host⟩

instance (rejects : Text → Bool) (raw host : Text) : Decidable (Dials rejects raw host) :=
  inferInstanceAs (Decidable (_ = _))

theorem dispatch_tcp_iff (u : Option Url) (addr : Text) : dispatch u = .tcp addr ↔ u = some ⟨"tcp".toList, addr⟩ := by
  cases u with
  | none => simp [dispatch]
  | some u =>
    obtain ⟨scheme, host⟩ := u
    simp only [dispatch]
    split
    · rename_i hunix
      simp [hunix]
    · split
      · rename_i htcp
        simp [htcp]
      · rename_i htcp
        refine ⟨fun h => ?_, fun h => ?_⟩
        · cases h
        · cases h
          exact absurd rfl htcp

theorem createListener_tcp_iff (rejects : Text → Bool) {cfg : Config} {raw : Text} (h : cfg.effective = some raw)
    (addr : Text) :
    createListener rejects false cfg = .tcp addr ↔ ¬ Exposed (hostPart (checkedText raw)) ∧ Dials rejects raw addr := by
  unfold createListener
  rw [h, ← validate_ok_iff]
  simp only
  cases validateListenAddress false raw with
  | error r => simp
  | ok v => simp [dispatch_tcp_iff, Dials]

/-! ## Plain addresses -/

/-- The exporter listens on no host that is empty, unspecified or not a loopback one. -/
def Guarded (rejects : Text → Bool) (cfg : Config) : Prop :=
  ∀ addr, createListener rejects false cfg = .tcp addr → ¬ Exposed (hostPart addr)

/-- A host with a port or without, and nothing else but perhaps `tcp://`. -/
def PlainAddress (raw : Text) : Prop := ∃ host, Plain host ∧ (raw = host ∨ raw = "tcp://".toList ++ host)

theorem hasScheme_of_plain {host : Text} (h : Plain host) : hasScheme host = false := by
  have hno : ¬ "://".toList <:+: host := fun hin => h.1 (hin.subset (by decide))
  exact decide_eq_false hno

theorem hasScheme_append (s rest : Text) : hasScheme (s ++ "://".toList ++ rest) = true :=
  decide_eq_true ⟨s, rest, rfl⟩

theorem trimPrefixOf_append (pre s : Text) : trimPrefixOf pre (pre ++ s) = s := by
  have hpre : pre.isPrefixOf (pre ++ s) = true := List.isPrefixOf_iff_prefix.mpr (List.prefix_append pre s)
  simp [trimPrefixOf, hpre]

theorem trimPrefixOf_of_not {pre s : Text} (h : ¬ pre <+: s) : trimPrefixOf pre s = s :=
  if_neg fun hp => h (List.isPrefixOf_iff_prefix.mp hp)

theorem plain_texts {raw : Text} (h : PlainAddress raw) :
    ∃ host, Plain host ∧ checkedText raw = host ∧ urlText raw = "tcp://".toList ++ host := by
  obtain ⟨host, hp, rfl | rfl⟩ := h
  · have hno := hasScheme_of_plain hp
    exact ⟨raw, hp, by simp [checkedText, hno], by simp [urlText, hno]⟩
  · have hyes : hasScheme ("tcp://".toList ++ host) = true := hasScheme_append "tcp".toList host
    have hunix : ¬ "unix://".toList <+: host := fun hpre => hp.1 (hpre.subset (by decide))
    refine ⟨host, hp, ?_, by simp only [urlText, hyes, if_true]⟩
    simp only [checkedText, hyes, if_true, trimPrefixOf_append, trimPrefixOf_of_not hunix]

theorem guarded_of_plain (rejects : Text → Bool) {cfg : Config} {raw : Text} (h : cfg.effective = some raw)
    (hplain : PlainAddress raw) : Guarded rejects cfg := by
  obtain ⟨host, hp, hchecked, hurl⟩ := plain_texts hplain
  intro addr hlisten
  obtain ⟨hno, hdials⟩ := (createListener_tcp_iff rejects h addr).mp hlisten
  have haddr : addr = host := by
    unfold Dials at hdials
    rw [hurl] at hdials
    cases hr : rejects ("tcp://".toList ++ host) with
    | true =>
      rw [urlParse, if_pos hr] at hdials
      cases hdials
    | false =>
      have hparts := @urlParse_parts rejects "tcp".toList [] host [] rfl (.inl rfl) hp (.inl rfl)
      rw [List.nil_append, List.append_nil] at hparts
      exact (congrArg Url.host (Option.some.inj ((hparts hr).symm.trans hdials))).symm
  rwa [haddr, ← hchecked]

theorem plain_default (port : UInt16) : Plain ("127.0.0.1:".toList ++ (decimal port.toNat).toList) := by
  have hno : ∀ c : Char, c ∉ "127.0.0.1:".toList → c.isDigit = false →
      c ∉ "127.0.0.1:".toList ++ (decimal port.toNat).toList := by
    intro c hc hdigit hmem
    rcases List.mem_append.mp hmem with h | h
    · exact hc h
    · simp [isDigit_of_mem_decimal h] at hdigit
  exact ⟨hno _ (by decide) rfl, hno _ (by decide) rfl, hno _ (by decide) rfl, hno _ (by decide) rfl⟩

/-! ## What stands around the host -/

/-- A scheme before the host, user information between the two, and a path, a query or a
    fragment behind it; each of them may be missing. -/
structure Decorates (scheme user tail : Text) : Prop where
  scheme : scheme = [] ∧ ¬ "://".toList <:+: tail ∨
    ∃ s, s.map Char.toLower = "tcp".toList ∧ scheme = s ++ "://".toList
  user : UserInfo user
  tail : Tail tail

theorem hasScheme_of_tail {x tail : Text} (hx : '/' ∉ x) (hlast : x.getLast? ≠ some ':')
    (ht : ¬ "://".toList <:+: tail) : hasScheme (x ++ tail) = false := by
  refine decide_eq_false ?_
  rintro ⟨p, q, hpq⟩
  have htext : "://".toList = [':', '/', '/'] := rfl
  rw [List.append_assoc, List.append_eq_append_iff, htext] at hpq
  rcases hpq with ⟨a, rfl, ha⟩ | ⟨a, rfl, ha⟩
  · match a, ha with
    | [], ha => exact ht ⟨[], q, ha⟩
    | [_], ha =>
      obtain ⟨rfl, -⟩ := List.cons.inj ha
      exact hlast (by simp)
    | _ :: _ :: _, ha =>
      obtain ⟨-, ha⟩ := List.cons.inj ha
      obtain ⟨rfl, -⟩ := List.cons.inj ha
      exact hx (by simp)
  · exact ht ⟨a, q, by rw [ha, List.append_assoc, htext]⟩

theorem slash_not_mem_user {user : Text} (h : UserInfo user) : '/' ∉ user := by
  rcases h with rfl | ⟨u, rfl, hu, -⟩
  · exact List.not_mem_nil
  · simp [hu]

section Host

variable {rejects : Text → Bool} {scheme user tail host : Text}

/-- The hosts that the condition is tried with: they end in a digit. -/
theorem hasScheme_bare (hu : UserInfo user) (ht : ¬ "://".toList <:+: tail)
    (hh : host = "0.0.0.0".toList ∨ host = "0.0.0.0:80".toList) : hasScheme (user ++ host ++ tail) = false := by
  have hslash := slash_not_mem_user hu
  refine hasScheme_of_tail ?_ ?_ ht
  · rcases hh with rfl | rfl <;> simp [hslash]
  · rcases hh with rfl | rfl <;> simp

theorem plain_tried (hh : host = "0.0.0.0".toList ∨ host = "0.0.0.0:80".toList) : Plain host := by
  rcases hh with rfl | rfl <;> decide

theorem exposed_tried (hh : host = "0.0.0.0".toList ∨ host = "0.0.0.0:80".toList) : Exposed (hostPart host) := by
  rcases hh with rfl | rfl <;> decide

theorem dials_of_decorates (hd : Decorates scheme user tail)
    (hh : host = "0.0.0.0".toList ∨ host = "0.0.0.0:80".toList)
    (hr : rejects (urlText (scheme ++ (user ++ host ++ tail))) = false) :
    Dials rejects (scheme ++ (user ++ host ++ tail)) host := by
  unfold Dials
  obtain ⟨s, hs, htext⟩ : ∃ s, s.map Char.toLower = "tcp".toList ∧
      urlText (scheme ++ (user ++ host ++ tail)) = s ++ "://".toList ++ (user ++ host ++ tail) := by
    rcases hd.scheme with ⟨rfl, ht⟩ | ⟨s, hs, rfl⟩
    · refine ⟨"tcp".toList, rfl, ?_⟩
      rw [List.nil_append, urlText, hasScheme_bare hd.user ht hh]
      rfl
    · exact ⟨s, hs, by rw [urlText, hasScheme_append, if_pos rfl]⟩
  rw [htext] at hr ⊢
  exact urlParse_parts hs hd.user (plain_tried hh) hd.tail hr

/-- With no scheme or `tcp://`, the check reads all that follows. -/
theorem checkedText_of_lower (hd : Decorates scheme user tail) (hs : scheme = [] ∨ scheme = "tcp://".toList)
    (hh : host = "0.0.0.0".toList ∨ host = "0.0.0.0:80".toList) :
    checkedText (scheme ++ (user ++ host ++ tail)) = user ++ host ++ tail := by
  rcases hs with rfl | rfl
  · rcases hd.scheme with ⟨-, ht⟩ | ⟨s, -, hs⟩
    · rw [List.nil_append, checkedText, hasScheme_bare hd.user ht hh]
      rfl
    · simp at hs
  · have hyes : hasScheme ("tcp://".toList ++ (user ++ host ++ tail)) = true := hasScheme_append "tcp".toList _
    have hunix : ¬ "unix://".toList <+: user ++ host ++ tail := by
      intro hpre
      have hslash := slash_not_mem_user hd.user
      rcases List.prefix_or_prefix_of_prefix hpre (List.prefix_append (user ++ host) tail) with h | h
      · have hmem : '/' ∈ user ++ host := h.subset (by decide)
        rcases hh with rfl | rfl <;> simp [hslash] at hmem
      · have hmem : '0' ∈ "unix://".toList := h.subset (by rcases hh with rfl | rfl <;> simp)
        exact absurd hmem (by decide)
    rw [checkedText, hyes, if_pos rfl, trimPrefixOf_append, trimPrefixOf_of_not hunix]

/-- With `tcp` spelled in another way, the check reads the scheme as well. -/
theorem checkedText_of_upper {s rest : Text} (hs : s.map Char.toLower = "tcp".toList) (hne : s ≠ "tcp".toList) :
    checkedText (s ++ "://".toList ++ rest) = s ++ "://".toList ++ rest := by
  have hlen : s.length = 3 := by simpa using congrArg List.length hs
  have hhead : ∀ pre : Text, pre <+: s ++ "://".toList ++ rest → 3 ≤ pre.length → s = pre.take 3 := by
    intro pre hpre hlong
    have htake := hpre.take 3
    rw [List.append_assoc, List.take_append_of_le_length hlen.ge, List.take_of_length_le hlen.le] at htake
    exact (htake.eq_of_length (by simp [hlen, hlong])).symm
  have htcp : ¬ "tcp://".toList <+: s ++ "://".toList ++ rest := fun hpre => hne (hhead _ hpre (by decide))
  have hunix : ¬ "unix://".toList <+: s ++ "://".toList ++ rest := by
    intro hpre
    rw [hhead _ hpre (by decide)] at hs
    exact absurd hs (by decide)
  rw [checkedText, hasScheme_append, if_pos rfl, trimPrefixOf_of_not htcp, trimPrefixOf_of_not hunix]

/-- A character that no address has stays in what the check takes for the host. -/
theorem not_guarded {c : Char} {a b : Text} (hd : Decorates scheme user tail)
    (hh : host = "0.0.0.0".toList ∨ host = "0.0.0.0:80".toList)
    (hr : rejects (urlText (scheme ++ (user ++ host ++ tail))) = false)
    (hchecked : checkedText (scheme ++ (user ++ host ++ tail)) = a ++ c :: b)
    (hc : c = '/' ∨ c = '?' ∨ c = '#' ∨ c = '@') (hcolon : ':' ∈ b ∨ ':' ∉ a) (port : UInt16) :
    ¬ Guarded rejects ⟨scheme ++ (user ++ host ++ tail), port⟩ := by
  intro hguard
  have heff : Config.effective ⟨scheme ++ (user ++ host ++ tail), port⟩ =
      some (scheme ++ (user ++ host ++ tail)) := by
    refine if_neg fun hnil => ?_
    rcases hh with rfl | rfl <;> simp at hnil
  have hno : ¬ Exposed (hostPart (checkedText (scheme ++ (user ++ host ++ tail)))) := by
    rw [hchecked]
    refine not_exposed_of_mem (mem_hostPart ?_ ?_ ?_ hcolon) ?_ <;> rcases hc with rfl | rfl | rfl | rfl <;> decide
  exact hguard host ((createListener_tcp_iff rejects heff host).mpr ⟨hno, dials_of_decorates hd hh hr⟩)
    (exposed_tried hh)

end Host

/-- Every address that is listened on is the host of the text, with something around it, or
    the empty one of a URL without two slashes. -/
theorem listens_on_host (rejects : Text → Bool) {cfg : Config} {raw addr : Text} (h : cfg.effective = some raw)
    (hlisten : createListener rejects false cfg = .tcp addr) :
    addr = [] ∨ ∃ scheme user tail, Decorates scheme user tail ∧ Plain addr ∧
      raw = scheme ++ (user ++ addr ++ tail) := by
  have hdials := ((createListener_tcp_iff rejects h addr).mp hlisten).2
  rcases urlParse_some hdials (by decide) with hnil | ⟨s, t, hs, htext, rfl⟩
  · exact .inl hnil
  · obtain ⟨user, tail, ht, hu, hp, htail⟩ := exists_parts t
    refine .inr ?_
    cases hsch : hasScheme raw with
    | true =>
      rw [urlText, hsch, if_pos rfl] at htext
      exact ⟨s ++ "://".toList, user, tail, ⟨.inr ⟨s, hs, rfl⟩, hu, htail⟩, hp, by rw [htext, ← ht]⟩
    | false =>
      have hraw : raw = t := by
        rw [urlText, hsch, if_neg Bool.false_ne_true, List.append_assoc] at htext
        have hlen : s.length = 3 := by simpa using congrArg List.length hs
        have htext : "tcp".toList ++ ("://".toList ++ raw) = s ++ ("://".toList ++ t) := htext
        exact List.append_cancel_left (List.append_inj htext hlen.symm).2
      have hno : ¬ "://".toList <:+: tail := fun hin =>
        of_decide_eq_false hsch (by
          rw [hraw, ht]
          exact hin.trans (List.suffix_append _ tail).isInfix)
      exact ⟨[], user, tail, ⟨.inl ⟨rfl, hno⟩, hu, htail⟩, hp, by rw [hraw, List.nil_append, ← ht]⟩

section Around

variable {rejects : Text → Bool} {scheme user tail : Text} (hd : Decorates scheme user tail)
  (hguard : ∀ host port, Plain host → Guarded rejects ⟨scheme ++ (user ++ host ++ tail), port⟩)

include hd hguard

theorem scheme_of_guarded (hr : rejects (urlText (scheme ++ (user ++ "0.0.0.0:80".toList ++ tail))) = false) :
    scheme = [] ∨ scheme = "tcp://".toList := by
  rcases hd.scheme with ⟨hnil, -⟩ | ⟨s, hs, rfl⟩
  · exact .inl hnil
  · by_contra hno
    have hne : s ≠ "tcp".toList := by
      rintro rfl
      exact hno (.inr rfl)
    refine not_guarded (c := '/') (a := s ++ [':']) (b := '/' :: (user ++ "0.0.0.0:80".toList ++ tail)) hd
      (.inr rfl) hr ?_ (.inl rfl) (.inl (by simp)) 0 (hguard _ 0 (by decide))
    rw [checkedText_of_upper hs hne]
    simp

theorem user_of_guarded (hscheme : scheme = [] ∨ scheme = "tcp://".toList)
    (hr : rejects (urlText (scheme ++ (user ++ "0.0.0.0:80".toList ++ tail))) = false) : user = [] := by
  rcases hd.user with hnil | ⟨u, hu, -⟩
  · exact hnil
  · refine absurd (hguard _ 0 (by decide)) (not_guarded (c := '@') (a := u) (b := "0.0.0.0:80".toList ++ tail) hd
      (.inr rfl) hr ?_ (.inr (.inr (.inr rfl))) (.inl (by simp)) 0)
    rw [checkedText_of_lower hd hscheme (.inr rfl), hu]
    simp

theorem tail_of_guarded (hscheme : scheme = [] ∨ scheme = "tcp://".toList) (huser : user = [])
    (hr : rejects (urlText (scheme ++ (user ++ "0.0.0.0".toList ++ tail))) = false) : tail = [] := by
  rcases hd.tail with hnil | ⟨c, t, htail, hc⟩
  · exact hnil
  · refine absurd (hguard _ 0 (by decide)) (not_guarded (c := c) (a := "0.0.0.0".toList) (b := t) hd
      (.inl rfl) hr ?_ (by tauto) (.inr (by decide)) 0)
    rw [checkedText_of_lower hd hscheme (.inl rfl), huser, htail, List.nil_append]

end Around

theorem guarded_of_bare (rejects : Text → Bool) {scheme host : Text} (hs : scheme = [] ∨ scheme = "tcp://".toList)
    (hp : Plain host) (port : UInt16) : Guarded rejects ⟨scheme ++ host, port⟩ := by
  by_cases hnil : scheme ++ host = []
  · by_cases hport : port = 0
    · intro addr hlisten
      simp [createListener, Config.effective, hnil, hport] at hlisten
    · have heff : Config.effective ⟨scheme ++ host, port⟩ =
          some ("127.0.0.1:".toList ++ (decimal port.toNat).toList) := by
        simp only [Config.effective, hnil, if_true, ne_eq, hport, not_false_eq_true]
        rfl
      exact guarded_of_plain rejects heff ⟨_, plain_default port, .inl rfl⟩
  · refine guarded_of_plain rejects (if_neg hnil) ⟨host, hp, ?_⟩
    rcases hs with rfl | rfl
    · exact .inl rfl
    · exact .inr rfl

end EliteTelemetry.Exporter.Listen
