/-
  EliteTelemetry.Netstack.Parse — the rules of an iptables-xml dump
  (`pkg/skoop/netstack/iptables.go`: `createMatcher`, `createTarget`, `parseOneRule`).

  A rule element has its conditions, a list of modules with the expressions of each, and its
  action. `parseOneRule` makes a matcher of every expression and a target of the action.

  It is not faithful to the dump in three ways. iptables-xml marks an expression that is
  negated with `invert="1"`, and the parser looks for `true`, so no negation is ever taken
  over. A goto gives a target that calls. And the value of a TCP or UDP expression has to be
  one number; where it is not, a range of ports or a list of flags, the parser panics.
  Short of these, and of a rule that no packet meets whichever way it is read, the rule is
  what the dump says (`parse_faithful_iff`).
-/

import EliteTelemetry.Lib.Fallible
import EliteTelemetry.Netstack.Matchers

namespace EliteTelemetry.Netstack

open EliteTelemetry.Lib EliteTelemetry.Lib.Fallible

/-! ## Elements -/

structure XmlName where
  text : String
  start : text.toList.head? ≠ some '-'
  deriving DecidableEq, Repr

structure Element where
  tag : XmlName
  attrs : List (String × String)
  text : String
  children : List Element

namespace Element

def selectAttr (e : Element) (key : String) : Option String := e.attrs.lookup key

def findElement (e : Element) (tag : String) : Option Element := e.children.find? (·.tag.text = tag)

end Element

/-! ## Conditions -/

inductive Module where
  | tcp
  | udp
  | ip
  | set
  | comment
  | multiport
  | mark
  | statistic
  | conntrack
  | addrtype
  | rpfilter
  deriving DecidableEq, Repr

def moduleTypes : List (String × Module) :=
  [("tcp", .tcp), ("udp", .udp), ("match", .ip), ("set", .set), ("comment", .comment), ("multiport", .multiport),
    ("mark", .mark), ("statistic", .statistic), ("conntrack", .conntrack), ("addrtype", .addrtype),
    ("rpfilter", .rpfilter)]

/-- `setField` of a field of type `uint16`, which keeps the low bits of the number. -/
def setUint16 (value : String) : Except GoText.NumError UInt16 :=
  match GoText.parseUint value.toList 10 64 with
  | (n, none) => .ok (UInt16.ofNat n)
  | (_, some cause) => .error cause

def createMatcher : Module → String → String → Except GoText.NumError Matcher
  | .tcp, matchField, value => (setUint16 value).map (.tcp matchField)
  | .udp, matchField, value => (setUint16 value).map (.udp matchField)
  | .ip, matchField, value => .ok (.ip matchField value)
  | .set, matchField, value => .ok (.set matchField value)
  | .comment, matchField, value => .ok (.comment matchField value)
  | .multiport, matchField, value => .ok (.multiport matchField value)
  | .mark, matchField, value => .ok (.mark matchField value)
  | .statistic, matchField, value => .ok (.statistic matchField value)
  | .conntrack, matchField, value => .ok (.conntrack matchField value)
  | .addrtype, matchField, value => .ok (.addrtype matchField value)
  | .rpfilter, matchField, value => .ok (.rpfilter matchField value)

inductive ParseErr where
  | error (message : String)
  /-- `panic(err)`, for the value that could not be set. -/
  | panicValue (value : String) (cause : GoText.NumError)
  /-- A call or goto without a chain: an index out of range. -/
  | panicNoChain
  deriving DecidableEq, Repr

def parseExpr (module : Module) (xmlExpr : Element) : Except ParseErr (Matcher × Bool) :=
  match createMatcher module xmlExpr.tag.text xmlExpr.text with
  | .error cause => .error (.panicValue xmlExpr.text cause)
  | .ok matcher => .ok (matcher, xmlExpr.selectAttr "invert" == some "true")

def parseModule (xmlModule : Element) : Except ParseErr (List (Matcher × Bool)) :=
  match moduleTypes.lookup xmlModule.tag.text with
  | none => .error (.error ("unspported match module " ++ xmlModule.tag.text))
  | some module => xmlModule.children.mapM (parseExpr module)

def xmlModules (xmlRule : Element) : List Element := ((xmlRule.findElement "conditions").map (·.children)).getD []

def parseConditions (xmlRule : Element) : Except ParseErr (List (Matcher × Bool)) :=
  ((xmlModules xmlRule).mapM parseModule).map List.flatten

/-! ## Actions -/

inductive ActionType where
  | dnat
  | snat
  | masquerade
  | mark
  | accept
  | drop
  | return_
  | reject
  | noTrack
  | tProxy
  deriving DecidableEq, Repr

def actionTypes : List (String × ActionType) :=
  [("DNAT", .dnat), ("SNAT", .snat), ("MASQUERADE", .masquerade), ("MARK", .mark), ("ACCEPT", .accept),
    ("DROP", .drop), ("RETURN", .return_), ("REJECT", .reject), ("NOTRACK", .noTrack), ("TPROXY", .tProxy)]

inductive Field where
  | str (value : String)
  | flag (value : Bool)
  deriving DecidableEq, Repr

/-- The fields of a target that have a parameter, each with the parameter's name and the value
    it starts with. -/
def ActionType.fields : ActionType → List (String × Field)
  | .dnat => [("--to-destination", .str ""), ("--random", .flag false), ("--persistent", .flag false)]
  | .snat =>
    [("--to-source", .str ""), ("--random", .flag false), ("--random-fully", .flag false), ("--persistent", .flag false)]
  | _ => []

def setField : Field → String → Except String Field
  | .str _, value => .ok (.str value)
  | .flag _, _ => .error "unsupported field type bool"

def setParam (params : List (String × String)) (field : String × Field) : Except String (String × Field) :=
  match params.lookup field.1 with
  | none => .ok field
  | some val => (setField field.2 val).map fun value => (field.1, value)

def createTarget (type : ActionType) (params : List (String × String)) : Except String (List (String × Field)) :=
  type.fields.mapM (setParam params)

inductive ParsedTarget where
  | nop
  | call (chain : String)
  | goto (chain : String)
  | action (type : ActionType) (fields : List (String × Field))
  deriving DecidableEq, Repr

def xmlAction (xmlRule : Element) : Option Element := (xmlRule.findElement "actions").bind (·.children.head?)

def callTarget (action : Element) : Except ParseErr ParsedTarget :=
  match action.children with
  | [] => .error .panicNoChain
  | chain :: _ => .ok (.call chain.tag.text)

def parseTarget (xmlRule : Element) : Except ParseErr ParsedTarget :=
  match xmlAction xmlRule with
  | none => .ok .nop
  | some action =>
    if action.tag.text = "call" then callTarget action
    else if action.tag.text = "goto" then callTarget action
    else
      match actionTypes.lookup action.tag.text with
      | none => .error (.error ("unsupported action " ++ action.tag.text))
      | some type =>
        -- of two parameters of one name the later one stays
        match createTarget type (action.children.map fun child => (child.tag.text, child.text)).reverse with
        | .error err =>
          .error (.error ("error create target " ++ action.tag.text ++ ", err: " ++ err ++ ": " ++ err))
        | .ok fields => .ok (.action type fields)

/-! ## Rules -/

structure ParsedRule where
  conditions : List (Matcher × Bool)
  target : ParsedTarget
  deriving DecidableEq, Repr

def parseOneRule (xmlRule : Element) : Except ParseErr ParsedRule := do
  let conditions ← parseConditions xmlRule
  let target ← parseTarget xmlRule
  return { conditions, target }

def ParsedTarget.toTarget : ParsedTarget → Target
  | .nop => .nop
  | .call chain => .call chain
  | .goto chain => .goto chain
  | .action .accept _ => .accept
  | .action .drop _ => .drop
  | .action .return_ _ => .return_
  | .action .reject _ => .reject
  | .action .masquerade _ => .masquerade
  -- the others have a `Do`, and it accepts
  | .action .dnat _ | .action .snat _ | .action .mark _ | .action .noTrack _ | .action .tProxy _ =>
    .extension (.ok .accept)

variable (net : Net)

def ParsedRule.toRule (r : ParsedRule) (text : String) : Rule Traced where
  conditions := r.conditions.map fun c => { matcher := c.1.run net, invert := c.2 }
  target := r.target.toTarget
  text := text

/-! ## What a dump says -/

def marked (xmlExpr : Element) : Bool := xmlExpr.selectAttr "invert" == some "1"

def expressions (xmlRule : Element) : List (Element × Element) :=
  (xmlModules xmlRule).flatMap fun xmlModule => xmlModule.children.map fun xmlExpr => (xmlModule, xmlExpr)

structure WellFormed (xmlRule : Element) : Prop where
  modules : ∀ m ∈ xmlModules xmlRule, ∃ module, moduleTypes.lookup m.tag.text = some module
  invert : ∀ x ∈ expressions xmlRule, x.2.selectAttr "invert" = none ∨ x.2.selectAttr "invert" = some "1"
  action : ∀ a, xmlAction xmlRule = some a →
    (a.tag.text = "call" ∨ a.tag.text = "goto") ∧ a.children ≠ [] ∨ ∃ type, actionTypes.lookup a.tag.text = some type

def Answers (t : Traced) (x : Element × Element) (answer : Bool) : Prop :=
  ∃ module matcher, moduleTypes.lookup x.1.tag.text = some module ∧
    createMatcher module x.2.tag.text x.2.text = .ok matcher ∧ matcher.run net t = .ok answer

/-- Every expression matches the packet, the marked ones negated. -/
def Meets (xmlRule : Element) (t : Traced) : Prop := ∀ x ∈ expressions xmlRule, Answers net t x (!marked x.2)

/-- Every expression matches the packet, whether it is marked or not. -/
def MeetsUnmarked (xmlRule : Element) (t : Traced) : Prop := ∀ x ∈ expressions xmlRule, Answers net t x true

def TargetOf (xmlRule : Element) (target : ParsedTarget) : Prop :=
  match xmlAction xmlRule with
  | none => target = .nop
  | some a =>
    if a.tag.text = "call" then ∃ chain, a.children.head? = some chain ∧ target = .call chain.tag.text
    else if a.tag.text = "goto" then ∃ chain, a.children.head? = some chain ∧ target = .goto chain.tag.text
    else ∃ type fields, actionTypes.lookup a.tag.text = some type ∧ target = .action type fields

/-- The parser gives the rule that the dump says. -/
def Faithful (xmlRule : Element) : Prop :=
  ∃ r, parseOneRule xmlRule = .ok r ∧
    (∀ text t, (r.toRule net text).run t = .ok true ↔ Meets net xmlRule t) ∧ TargetOf xmlRule r.target

/-- The TCP and UDP expressions are decimal numbers of 64 bits. -/
def Readable (xmlRule : Element) : Prop :=
  ∀ x ∈ expressions xmlRule, x.1.tag.text = "tcp" ∨ x.1.tag.text = "udp" →
    GoText.Decimal x.2.text.toList ∧ Nat.ofDigitChars 10 x.2.text.toList 0 < 2 ^ 64

/-! ## Conditions, parsed -/

theorem setUint16_ok_iff {value : String} :
    (∃ n, setUint16 value = .ok n) ↔
      GoText.Decimal value.toList ∧ Nat.ofDigitChars 10 value.toList 0 < 2 ^ 64 := by
  unfold setUint16
  cases hv : GoText.parseUint value.toList 10 64 with
  | mk v err =>
    cases err with
    | none =>
      obtain ⟨hdecimal, rfl, hlt⟩ := GoText.parseUint_decimal_iff.mp hv
      exact iff_of_true ⟨_, rfl⟩ ⟨hdecimal, hlt⟩
    | some cause =>
      refine iff_of_false (by simp) ?_
      rintro ⟨hdecimal, hlt⟩
      rw [GoText.parseUint_decimal_iff.mpr ⟨hdecimal, rfl, hlt⟩] at hv
      exact absurd hv (by simp)

theorem exists_map_ok_iff {ε α β : Type} {x : Except ε α} {f : α → β} :
    (∃ b, x.map f = .ok b) ↔ ∃ a, x = .ok a := by
  cases x with
  | error err => simp [Except.map]
  | ok a => simp [Except.map]

variable {xmlRule : Element} {module : Module}

theorem createMatcher_ok_iff {matchField value : String} :
    (∃ matcher, createMatcher module matchField value = .ok matcher) ↔
      (module = .tcp ∨ module = .udp →
        GoText.Decimal value.toList ∧ Nat.ofDigitChars 10 value.toList 0 < 2 ^ 64) := by
  cases module with
  | tcp => simpa [createMatcher, exists_map_ok_iff] using setUint16_ok_iff
  | udp => simpa [createMatcher, exists_map_ok_iff] using setUint16_ok_iff
  | _ => simp [createMatcher]

theorem lookup_ports_iff {tag : String} (h : moduleTypes.lookup tag = some module) :
    module = .tcp ∨ module = .udp ↔ tag = "tcp" ∨ tag = "udp" := by
  obtain ⟨before, after, hsplit, -⟩ := List.lookup_eq_some_iff.mp h
  have hmem : (tag, module) ∈ moduleTypes := by
    rw [hsplit]
    simp
  -- the table has TCP and UDP under their own names only
  have htable : ∀ entry ∈ moduleTypes, (entry.2 = .tcp ∨ entry.2 = .udp ↔ entry.1 = "tcp" ∨ entry.1 = "udp") := by
    decide
  exact htable _ hmem

theorem parseExpr_ok {x : Element} {c : Matcher × Bool} :
    parseExpr module x = .ok c ↔
      createMatcher module x.tag.text x.text = .ok c.1 ∧ c.2 = (x.selectAttr "invert" == some "true") := by
  unfold parseExpr
  cases createMatcher module x.tag.text x.text with
  | error cause => simp
  | ok matcher =>
    constructor
    · intro h
      obtain rfl := Except.ok.inj h
      exact ⟨rfl, rfl⟩
    · rintro ⟨hm, hinvert⟩
      obtain rfl := Except.ok.inj hm
      rw [← hinvert]

theorem exists_parseExpr_ok_iff {x : Element} :
    (∃ c, parseExpr module x = .ok c) ↔ ∃ matcher, createMatcher module x.tag.text x.text = .ok matcher := by
  constructor
  · rintro ⟨c, hc⟩
    exact ⟨c.1, (parseExpr_ok.mp hc).1⟩
  · rintro ⟨matcher, hm⟩
    exact ⟨(matcher, _), parseExpr_ok.mpr ⟨hm, rfl⟩⟩

theorem forall_expressions {p : Element × Element → Prop} :
    (∀ x ∈ expressions xmlRule, p x) ↔ ∀ m ∈ xmlModules xmlRule, ∀ x ∈ m.children, p (m, x) := by
  simp only [expressions, List.forall_mem_flatMap, List.forall_mem_map]

/-- The conditions of a rule are read exactly if its TCP and UDP expressions are numbers. -/
theorem parseConditions_ok_iff (h : WellFormed xmlRule) :
    (∃ conditions, parseConditions xmlRule = .ok conditions) ↔ Readable xmlRule := by
  rw [parseConditions, exists_map_ok_iff, exists_mapM_ok_iff, Readable, forall_expressions]
  refine forall₂_congr fun m hm => ?_
  obtain ⟨module, hmodule⟩ := h.modules m hm
  rw [parseModule, hmodule]
  show (∃ b, m.children.mapM (parseExpr module) = .ok b) ↔ _
  rw [exists_mapM_ok_iff]
  refine forall₂_congr fun x _ => ?_
  rw [exists_parseExpr_ok_iff, createMatcher_ok_iff, lookup_ports_iff hmodule]

theorem forall_of_parseConditions_ok (h : WellFormed xmlRule) {conditions : List (Matcher × Bool)}
    (hok : parseConditions xmlRule = .ok conditions) (p : Matcher × Bool → Prop) :
    (∀ c ∈ conditions, p c) ↔ ∀ x ∈ expressions xmlRule, ∃ module c,
      moduleTypes.lookup x.1.tag.text = some module ∧ parseExpr module x.2 = .ok c ∧ p c := by
  unfold parseConditions at hok
  cases hparts : (xmlModules xmlRule).mapM parseModule with
  | error err => exact absurd (hparts ▸ hok) (by simp [Except.map])
  | ok parts =>
    rw [hparts] at hok
    obtain rfl : parts.flatten = conditions := Except.ok.inj hok
    rw [List.forall_mem_flatten, forall_of_mapM_ok hparts, forall_expressions]
    refine forall₂_congr fun m hm => ?_
    obtain ⟨module, hmodule⟩ := h.modules m hm
    obtain ⟨part, hpart⟩ := exists_mapM_ok_iff.mp ⟨parts, hparts⟩ m hm
    have hexprs : m.children.mapM (parseExpr module) = .ok part := by
      rw [parseModule, hmodule] at hpart
      exact hpart
    simp only [hpart, hmodule, Except.ok.injEq, Option.some.injEq, exists_and_left, exists_eq_left',
      forall_of_mapM_ok hexprs]

/-! ## Rules, run -/

theorem go_eq_true_iff {P : Type} {p : P} {ms : List (Match P)} :
    Rule.run.go p ms = .ok true ↔ ∀ m ∈ ms, m.run p = .ok true := by
  induction ms with
  | nil => simp [Rule.run.go]
  | cons m ms ih =>
    rw [Rule.run.go, List.forall_mem_cons, ← ih]
    cases m.run p with
    | error err => simp
    | ok v => cases v <;> simp

theorem run_of_not_invert {P : Type} {p : P} {m : Match P} (h : m.invert = false) : m.run p = m.matcher p := by
  unfold Match.run
  cases m.matcher p <;> simp [h, Except.map]

/-- A rule that is read takes no mark over: it matches the packets that every expression
    matches. -/
theorem run_toRule_iff (h : WellFormed xmlRule) {r : ParsedRule} (hok : parseConditions xmlRule = .ok r.conditions)
    {text : String} {t : Traced} : (r.toRule net text).run t = .ok true ↔ MeetsUnmarked net xmlRule t := by
  unfold Rule.run
  rw [go_eq_true_iff, ParsedRule.toRule, List.forall_mem_map, forall_of_parseConditions_ok h hok]
  refine forall₂_congr fun x hx => ?_
  have hinvert : (x.2.selectAttr "invert" == some "true") = false := by
    rcases h.invert x hx with hnone | hone
    · rw [hnone]
      rfl
    · rw [hone]
      rfl
  constructor
  · rintro ⟨module, c, hmodule, hc, hrun⟩
    obtain ⟨hmatcher, hc2⟩ := parseExpr_ok.mp hc
    rw [run_of_not_invert (hc2.trans hinvert)] at hrun
    exact ⟨module, c.1, hmodule, hmatcher, hrun⟩
  · rintro ⟨module, matcher, hmodule, hmatcher, hrun⟩
    refine ⟨module, (matcher, _), hmodule, parseExpr_ok.mpr ⟨hmatcher, rfl⟩, ?_⟩
    rw [run_of_not_invert hinvert]
    exact hrun

/-! ## Targets, parsed -/

theorem lookup_of_hyphen {children : List Element} {tag : String} (h : tag.toList.head? = some '-') :
    (children.map fun child => (child.tag.text, child.text)).reverse.lookup tag = none := by
  rw [List.lookup_eq_none_iff]
  intro entry hentry
  simp only [List.mem_reverse, List.mem_map] at hentry
  obtain ⟨child, -, rfl⟩ := hentry
  rw [bne_iff_ne]
  rintro rfl
  exact child.tag.start h

/-- The parameters' names all start with hyphens, and no element's does: a target is made with
    the values its fields start with. -/
theorem createTarget_eq (type : ActionType) (children : List Element) :
    createTarget type (children.map fun child => (child.tag.text, child.text)).reverse = .ok type.fields := by
  have hhyphen : ∀ field ∈ type.fields, field.1.toList.head? = some '-' := by
    cases type <;> decide
  refine mapM_ok_self fun field hfield => ?_
  rw [setParam, lookup_of_hyphen (hhyphen field hfield)]

theorem callTarget_ok {action : Element} (h : action.children ≠ []) :
    ∃ chain, action.children.head? = some chain ∧ callTarget action = .ok (.call chain.tag.text) := by
  obtain ⟨chain, rest, hchain⟩ := List.exists_cons_of_ne_nil h
  exact ⟨chain, by rw [hchain]; rfl, by rw [callTarget, hchain]⟩

theorem lookup_action_ne {tag : String} {type : ActionType} (h : actionTypes.lookup tag = some type) :
    tag ≠ "call" ∧ tag ≠ "goto" := by
  have hnone : ∀ name ∈ ["call", "goto"], actionTypes.lookup name = none := by decide
  constructor
  · intro hcall
    rw [hcall, hnone "call" (by simp)] at h
    exact absurd h (by simp)
  · intro hgoto
    rw [hgoto, hnone "goto" (by simp)] at h
    exact absurd h (by simp)

/-- The target of a well-formed rule is that of its action, but for a goto. -/
theorem parseTarget_ok (h : WellFormed xmlRule) :
    ∃ target, parseTarget xmlRule = .ok target ∧
      (TargetOf xmlRule target ↔ ∀ a, xmlAction xmlRule = some a → a.tag.text ≠ "goto") := by
  unfold parseTarget TargetOf
  cases haction : xmlAction xmlRule with
  | none => exact ⟨.nop, rfl, by simp⟩
  | some a =>
    simp only [Option.some.injEq, forall_eq']
    rcases h.action a haction with ⟨hcall | hgoto, hchildren⟩ | ⟨type, htype⟩
    · obtain ⟨chain, hchain, htarget⟩ := callTarget_ok hchildren
      rw [if_pos hcall]
      refine ⟨.call chain.tag.text, htarget, ?_⟩
      rw [if_pos hcall, hcall]
      exact iff_of_true ⟨chain, hchain, rfl⟩ (by decide)
    · obtain ⟨chain, hchain, htarget⟩ := callTarget_ok hchildren
      have hcall : a.tag.text ≠ "call" := by
        rw [hgoto]
        decide
      rw [if_neg hcall, if_pos hgoto]
      refine ⟨.call chain.tag.text, htarget, ?_⟩
      rw [if_neg hcall, if_pos hgoto]
      refine iff_of_false ?_ fun hne => hne hgoto
      intro ⟨chain', _, htarget'⟩
      exact absurd htarget' (by simp)
    · obtain ⟨hcall, hgoto⟩ := lookup_action_ne htype
      refine ⟨.action type type.fields, ?_, ?_⟩
      · rw [if_neg hcall, if_neg hgoto, htype]
        simp only [createTarget_eq]
      · rw [if_neg hcall, if_neg hgoto]
        exact iff_of_true ⟨type, type.fields, htype, rfl⟩ hgoto

/-! ## The rule -/

theorem Answers.unique {t : Traced} {x : Element × Element} {b b' : Bool} (h : Answers net t x b)
    (h' : Answers net t x b') : b = b' := by
  obtain ⟨module, matcher, hmodule, hmatcher, hrun⟩ := h
  obtain ⟨module', matcher', hmodule', hmatcher', hrun'⟩ := h'
  obtain rfl := Option.some.inj (hmodule.symm.trans hmodule')
  obtain rfl := Except.ok.inj (hmatcher.symm.trans hmatcher')
  exact Except.ok.inj (hrun.symm.trans hrun')

/-- The marks make no difference to any packet: there are none, or no packet meets the rule
    with them or without. -/
theorem meets_iff_unmarked :
    (∀ t, MeetsUnmarked net xmlRule t ↔ Meets net xmlRule t) ↔
      ((∃ x ∈ expressions xmlRule, marked x.2 = true) →
        ∀ t, ¬Meets net xmlRule t ∧ ¬MeetsUnmarked net xmlRule t) := by
  constructor
  · rintro hsame ⟨x, hx, hmarked⟩ t
    have hnot : ¬(Meets net xmlRule t ∧ MeetsUnmarked net xmlRule t) := by
      rintro ⟨hmeets, hun⟩
      have := (hmeets x hx).unique net (hun x hx)
      rw [hmarked] at this
      exact absurd this (by simp)
    exact ⟨fun hmeets => hnot ⟨hmeets, (hsame t).mpr hmeets⟩, fun hun => hnot ⟨(hsame t).mp hun, hun⟩⟩
  · intro hmarks t
    by_cases hany : ∃ x ∈ expressions xmlRule, marked x.2 = true
    · exact iff_of_false (hmarks hany t).2 (hmarks hany t).1
    · refine forall₂_congr fun x hx => ?_
      have hunmarked : marked x.2 = false := by
        rw [← Bool.not_eq_true]
        exact fun hm => hany ⟨x, hx, hm⟩
      rw [hunmarked]
      rfl

/-- The parser gives the rule that the dump says exactly if every TCP and UDP expression is a
    number, the action is no goto, and there is no mark, or no packet that the rule is met by
    with the marks or without. -/
theorem parse_faithful_iff (xmlRule : Element) (h : WellFormed xmlRule) :
    Faithful net xmlRule ↔
      Readable xmlRule ∧ (∀ a, xmlAction xmlRule = some a → a.tag.text ≠ "goto") ∧
        ((∃ x ∈ expressions xmlRule, marked x.2 = true) →
          ∀ t, ¬Meets net xmlRule t ∧ ¬MeetsUnmarked net xmlRule t) := by
  obtain ⟨target, htarget, hkind⟩ := parseTarget_ok h
  rw [← parseConditions_ok_iff h, ← hkind, ← meets_iff_unmarked]
  constructor
  · rintro ⟨r, hparse, hrun, hr⟩
    obtain ⟨conditions, hconditions, hrest⟩ := bind_ok hparse
    obtain ⟨target', htarget', hr'⟩ := bind_ok hrest
    obtain rfl := Except.ok.inj (htarget.symm.trans htarget')
    obtain rfl := Except.ok.inj hr'
    refine ⟨⟨conditions, hconditions⟩, hr, fun t => ?_⟩
    rw [← hrun "" t, run_toRule_iff net h hconditions]
  · rintro ⟨⟨conditions, hconditions⟩, hr, hsame⟩
    refine ⟨{ conditions, target }, ?_, fun text t => ?_, hr⟩
    · rw [parseOneRule, hconditions, htarget]
      rfl
    · rw [run_toRule_iff net h hconditions, hsame]

/-! ## Rules of a dump -/

def leaf (tag : XmlName) (attrs : List (String × String)) (text : String) : Element :=
  { tag, attrs, text, children := [] }

def node (tag : XmlName) (children : List Element) : Element := { tag, attrs := [], text := "", children }

def markExpr (attrs : List (String × String)) : Element := leaf ⟨"mark", by decide⟩ attrs "0x4000/0x4000"

def markModule (attrs : List (String × String)) : Element := node ⟨"mark", by decide⟩ [markExpr attrs]

def markRule (attrs : List (String × String)) (action : Element) : Element :=
  node ⟨"rule", by decide⟩
    [node ⟨"conditions", by decide⟩ [markModule attrs], node ⟨"actions", by decide⟩ [action]]

def returns : Element := leaf ⟨"RETURN", by decide⟩ [] ""

def goesTo : Element := node ⟨"goto", by decide⟩ [leaf ⟨"KUBE-MARK-MASQ", by decide⟩ [] ""]

theorem expressions_markRule (attrs : List (String × String)) (action : Element) :
    expressions (markRule attrs action) = [(markModule attrs, markExpr attrs)] := rfl

theorem markRule_wellFormed {attrs : List (String × String)} {action : Element}
    (hattrs : attrs.lookup "invert" = none ∨ attrs.lookup "invert" = some "1")
    (haction : action = returns ∨ action = goesTo) : WellFormed (markRule attrs action) where
  modules m hm := by
    obtain rfl : m = markModule attrs := List.mem_singleton.mp hm
    exact ⟨.mark, rfl⟩
  invert x hx := by
    obtain rfl := List.mem_singleton.mp (expressions_markRule attrs action ▸ hx)
    exact hattrs
  action a ha := by
    obtain rfl : action = a := Option.some.inj ha
    rcases haction with rfl | rfl
    · exact .inr ⟨.return_, rfl⟩
    · exact .inl ⟨.inr rfl, by simp [goesTo, node]⟩

def noNet : Net := { ipMatchPrefix := fun _ _ => .ok false, ipString := fun _ => "" }

def incoming : Traced :=
  { packet := { src := [10, 0, 0, 1], sport := 40000, dst := [10, 0, 0, 2], dport := 80, protocol := .tcp, mark := 0 }
    iif := "eth0", oif := "", ipset := none, router := none }

theorem parse_faithful_plain :
    WellFormed (markRule [] returns) ∧ Faithful noNet (markRule [] returns) := by
  have hwf : WellFormed (markRule [] returns) := markRule_wellFormed (.inl rfl) (.inl rfl)
  refine ⟨hwf, (parse_faithful_iff noNet (markRule [] returns) hwf).mpr ⟨?_, ?_, ?_⟩⟩
  · intro x hx hports
    obtain rfl := List.mem_singleton.mp (expressions_markRule [] returns ▸ hx)
    exact absurd hports (by decide)
  · intro a ha
    obtain rfl : returns = a := Option.some.inj ha
    decide
  · rintro ⟨x, hx, hmarked⟩
    obtain rfl := List.mem_singleton.mp (expressions_markRule [] returns ▸ hx)
    exact absurd hmarked (by decide)

/-- A rule for packets without the mark is read as one for packets with it, and a goto as a
    call. -/
theorem a_negated_expression_is_read_plain :
    WellFormed (markRule [("invert", "1")] returns) ∧ Meets noNet (markRule [("invert", "1")] returns) incoming ∧
    parseOneRule (markRule [("invert", "1")] returns) =
      .ok { conditions := [(.mark "mark" "0x4000/0x4000", false)], target := .action .return_ [] } ∧
    (∀ text, (ParsedRule.toRule noNet
      { conditions := [(.mark "mark" "0x4000/0x4000", false)], target := .action .return_ [] } text).run incoming =
        .ok false) ∧
    ¬Faithful noNet (markRule [("invert", "1")] returns) ∧
    WellFormed (markRule [] goesTo) ∧
    parseOneRule (markRule [] goesTo) =
      .ok { conditions := [(.mark "mark" "0x4000/0x4000", false)], target := .call "KUBE-MARK-MASQ" } ∧
    ¬Faithful noNet (markRule [] goesTo) := by
  have hmeets : Meets noNet (markRule [("invert", "1")] returns) incoming := by
    intro x hx
    obtain rfl := List.mem_singleton.mp (expressions_markRule _ returns ▸ hx)
    exact ⟨.mark, .mark "mark" "0x4000/0x4000", rfl, rfl, by rfl⟩
  have hparse : parseOneRule (markRule [("invert", "1")] returns) =
      .ok { conditions := [(.mark "mark" "0x4000/0x4000", false)], target := .action .return_ [] } := by rfl
  have hgoto : parseOneRule (markRule [] goesTo) =
      .ok { conditions := [(.mark "mark" "0x4000/0x4000", false)], target := .call "KUBE-MARK-MASQ" } := by rfl
  refine ⟨markRule_wellFormed (.inr rfl) (.inl rfl), hmeets, hparse, fun text => by rfl, ?_,
    markRule_wellFormed (.inl rfl) (.inr rfl), hgoto, ?_⟩
  · rintro ⟨r, hr, hrun, -⟩
    obtain rfl := Except.ok.inj (hparse.symm.trans hr)
    exact absurd ((hrun "" incoming).mpr hmeets) (by decide +kernel)
  · rintro ⟨r, hr, -, chain, -, htarget⟩
    obtain rfl := Except.ok.inj (hgoto.symm.trans hr)
    exact absurd htarget (by simp)

end EliteTelemetry.Netstack
