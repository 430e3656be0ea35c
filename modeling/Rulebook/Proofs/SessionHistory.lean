import Mathlib.Data.List.Nodup
import Rulebook.Proofs.CanonicalTree
import Rulebook.Proofs.TableReading
import Rulebook.Table.Session

/-!
What a session makes of a table. Every request does one of four things: it is refused, it asks for
something, it replaces the table, or it adds one rule. So after any requests the rules have different
names, the first of them is the start, and they are those that were added since the table was
replaced for the last time. Rules that come from texts have canonical expressions.
-/

namespace Rulebook.Grammar

variable {source text rest : List Char} {rule : Rule}

theorem Defines.canonical {name : List Char} {tree : Expr} (defined : Defines text rest name tree) :
    Canonical tree.normal := by
  obtain ⟨_, _, _, _, _, derived⟩ := defined
  exact derived.canonical_normal

theorem canonical_of_read (read : Rule.read source = .ok rule) : Canonical rule.expression := by
  obtain ⟨_, _, _, defined, same⟩ := written_iff.mp (read_eq_ok_iff.mp read)
  rw [same]
  exact defined.canonical

theorem canonical_of_accepts {line : List Char} (accepts : Accepts line (some rule)) :
    Canonical rule.expression := by
  cases accepts with
  | rule _ _ longest =>
      obtain ⟨tree, defined, normal⟩ := longest.defined
      have same := normalized_eq defined
      simp only [Rule.normalized, normal, Except.ok.injEq, Rule.mk.injEq, true_and] at same
      rw [same]
      exact defined.canonical

end Rulebook.Grammar

namespace Rulebook.Table

open Grammar

/-! ## Tables whose rules have different names -/

/-- The start is the name of the first rule, and no name is given to two rules. -/
structure WellKept (table : Table) : Prop where
  started : table = ofRules table.rules
  distinct : table.names.Nodup

variable {table next : Table} {rule : Rule} {name text : List Char}

theorem empty_wellKept : WellKept empty := ⟨rfl, List.nodup_nil⟩

theorem read_wellKept (read : Table.read text = .ok table) : WellKept table := by
  obtain ⟨rules, _, distinct, rfl⟩ := (read_eq_ok_iff (lines_iff.mpr rfl)).mp read
  exact ⟨rfl, distinct⟩

theorem read_canonical (read : Table.read text = .ok table) :
    ∀ rule ∈ table.rules, Canonical rule.expression := by
  obtain ⟨rules, holds, _, rfl⟩ := (read_eq_ok_iff (lines_iff.mpr rfl)).mp read
  intro rule member
  obtain ⟨line, _, accepts⟩ := holds.accepts rule member
  exact canonical_of_accepts accepts

theorem WellKept.add_eq_ok_iff (kept : WellKept table) : table.add rule = .ok next ↔
    rule.name ∉ table.names ∧ next = ofRules (table.rules ++ [rule]) := by
  rw [kept.started]
  constructor
  · intro added
    by_cases known : rule.name ∈ (ofRules table.rules).names
    · cases (add_ofRules_of_mem known).symm.trans added
    · cases (add_ofRules known).symm.trans added
      exact ⟨known, rfl⟩
  · rintro ⟨new, rfl⟩
    exact add_ofRules new

theorem WellKept.added (kept : WellKept table) (added : table.add rule = .ok next) :
    WellKept next := by
  obtain ⟨new, rfl⟩ := kept.add_eq_ok_iff.mp added
  have distinct := kept.distinct
  rw [kept.started] at new distinct
  exact ⟨rfl, distinct_snoc distinct new⟩

theorem WellKept.get_eq_ok_iff (kept : WellKept table) :
    table.get name = .ok rule ↔ rule ∈ table.rules ∧ rule.name = name := by
  have found : table.get name = .ok rule ↔ table.find? name = some rule := by
    unfold get
    cases table.find? name <;> simp
  rw [found, find?]
  constructor
  · intro hit
    exact ⟨List.mem_of_find?_eq_some hit, by simpa using List.find?_some hit⟩
  · rintro ⟨member, rfl⟩
    cases hit : table.rules.find? (·.name == rule.name) with
    | none => exact absurd member (by simpa using List.find?_eq_none.mp hit rule)
    | some other =>
        have same : other.name = rule.name := by simpa using List.find?_some hit
        have listed := List.mem_of_find?_eq_some hit
        rw [List.inj_on_of_nodup_map kept.distinct listed member same]

structure AllCanonical (table : Table) : Prop extends WellKept table where
  canonical : ∀ rule ∈ table.rules, Canonical rule.expression

theorem AllCanonical.added (canonical : AllCanonical table) (new : Canonical rule.expression)
    (added : table.add rule = .ok next) : AllCanonical next := by
  refine ⟨canonical.toWellKept.added added, ?_⟩
  obtain ⟨_, rfl⟩ := canonical.add_eq_ok_iff.mp added
  intro other member
  rcases List.mem_append.mp member with early | last
  · exact canonical.canonical other early
  · rwa [List.mem_singleton.mp last]

/-! ## What one request does -/

def Request.rule? : Request → Option Rule
  | .addText text =>
      match Rule.read text with
      | .ok rule => some rule
      | .error _ => none
  | .addRule rule => some rule
  | _ => none

def Request.Asks : Request → Prop
  | .get _ | .dangling | .rules => True
  | _ => False

theorem rule?_eq_some_iff {request : Request} : request.rule? = some rule ↔
    request = .addRule rule ∨ ∃ text, request = .addText text ∧ Rule.read text = .ok rule := by
  cases request with
  | addText text => cases read : Rule.read text <;> simp [Request.rule?, read]
  | _ => simp [Request.rule?]

theorem Request.Asks.rule?_eq_none {request : Request} (asks : request.Asks) :
    request.rule? = none := by
  cases request <;> first | rfl | exact asks.elim

structure Exchange where
  request : Request
  reply : Except Fault Reply

/-- The rule that was added, unless the request was refused. -/
def Exchange.added (exchange : Exchange) : List Rule :=
  match exchange.reply with
  | .ok _ => exchange.request.rule?.toList
  | .error _ => []

def Exchange.Replaces (exchange : Exchange) : Prop :=
  ∃ text reply, exchange = ⟨.read text, .ok reply⟩

/-- The four things that an exchange can make of a table. -/
inductive Effect (table : Table) : Exchange → Table → Prop where
  | refused {request : Request} {fault : Fault} : Effect table ⟨request, .error fault⟩ table
  | asked {request : Request} {reply : Reply} : request.Asks →
      Effect table ⟨request, .ok reply⟩ table
  | replaced {text : List Char} {found : Table} : Table.read text = .ok found →
      Effect table ⟨.read text, .ok .done⟩ found
  | added {request : Request} {rule : Rule} {longer : Table} : request.rule? = some rule →
      table.add rule = .ok longer → Effect table ⟨request, .ok .done⟩ longer

theorem enter_cases (table : Table) (rule : Rule) :
    (∃ fault, (enter rule).on table = (.error fault, table)) ∨
    ∃ longer, (enter rule).on table = (.ok (), longer) ∧ table.add rule = .ok longer := by
  cases known : table.defines rule.name with
  | true => exact Or.inl ⟨_, enter_of_defines known⟩
  | false => exact Or.inr ⟨_, enter_of_new known, by rw [add, enter_of_new known]⟩

theorem enter_effect {request : Request} (offered : request.rule? = some rule)
    (entered : table.step request = (((enter rule).on table).1.map fun _ => .done,
      ((enter rule).on table).2)) :
    Effect table ⟨request, (table.step request).1⟩ (table.step request).2 := by
  rw [entered]
  rcases enter_cases table rule with ⟨fault, refused⟩ | ⟨longer, done, added⟩
  · rw [refused]
    exact Effect.refused
  · rw [done]
    exact Effect.added offered added

theorem step_enter (table : Table) (rule : Rule) : table.step (.addRule rule) =
    (((enter rule).on table).1.map fun _ => .done, ((enter rule).on table).2) := by
  simp only [step, answer, Action.on_bind, Action.on_pure]
  rcases (enter rule).on table with ⟨fault | _, later⟩ <;> rfl

/-- One request does one of four things, whether it comes to its end or not. -/
theorem step_effect (table : Table) (request : Request) :
    Effect table ⟨request, (table.step request).1⟩ (table.step request).2 := by
  cases request with
  | read text =>
      simp only [step, answer, Action.on_bind, Action.on_lift, Action.on_set, Action.on_pure]
      cases read : Table.read text with
      -- a text that cannot be read to its end leaves the table as it was
      | error fault => exact Effect.refused
      | ok found => exact Effect.replaced read
  | addText text =>
      cases read : Rule.read text with
      | error fault =>
          simp only [step, answer, Action.on_bind, Action.on_lift, read]
          exact Effect.refused
      | ok rule =>
          apply enter_effect (rule?_eq_some_iff.mpr (Or.inr ⟨text, rfl, read⟩))
          rw [← step_enter]
          simp only [step, answer, Action.on_bind, Action.on_lift, read]
  | addRule rule => exact enter_effect rfl (step_enter table rule)
  | get name =>
      simp only [step, answer, Action.on_bind, Action.on_getThe, Action.on_lift, Action.on_pure]
      cases table.get name with
      | error fault => exact Effect.refused
      | ok rule => exact Effect.asked trivial
  | dangling | rules => exact Effect.asked trivial

/-! ## What every request keeps -/

variable {exchange : Exchange}

theorem Effect.wellKept (effect : Effect table exchange next) (kept : WellKept table) :
    WellKept next := by
  cases effect with
  | refused | asked => exact kept
  | replaced read => exact read_wellKept read
  | added _ added => exact kept.added added

theorem Effect.canonical (effect : Effect table exchange next) (canonical : AllCanonical table)
    (written : ∀ rule, exchange.request ≠ .addRule rule) : AllCanonical next := by
  cases effect with
  | refused | asked => exact canonical
  | replaced read => exact ⟨read_wellKept read, read_canonical read⟩
  | @added _ rule _ offered added =>
      rcases rule?_eq_some_iff.mp offered with given | ⟨text, _, read⟩
      · exact absurd given (written rule)
      · exact canonical.added (canonical_of_read read) added

theorem Effect.rules_eq (effect : Effect table exchange next) (kept : WellKept table)
    (stays : ¬ exchange.Replaces) : next.rules = table.rules ++ exchange.added := by
  cases effect with
  | refused => simp [Exchange.added]
  | asked asks => simp [Exchange.added, asks.rule?_eq_none]
  | replaced => exact absurd ⟨_, _, rfl⟩ stays
  | added offered grown =>
      obtain ⟨_, rfl⟩ := kept.add_eq_ok_iff.mp grown
      simp [Exchange.added, offered, ofRules]

theorem Effect.replaces (effect : Effect table exchange next) {reply : Reply}
    (replaced : exchange = ⟨.read text, .ok reply⟩) : Table.read text = .ok next := by
  cases effect with
  | refused => cases replaced
  | asked asks =>
      cases replaced
      exact asks.elim
  | replaced read =>
      cases replaced
      exact read
  | added offered =>
      cases replaced
      cases offered

/-! ## Sessions -/

def serve (table : Table) : List Request → List Exchange × Table
  | [] => ([], table)
  | request :: later =>
      let answered := table.step request
      let others := serve answered.2 later
      (⟨request, answered.1⟩ :: others.1, others.2)

theorem serve_requests (table : Table) (requests : List Request) :
    (table.serve requests).1.map (·.request) = requests := by
  induction requests generalizing table with
  | nil => rfl
  | cons request later ih => simp only [serve, List.map_cons, ih]

theorem serve_keeps {holds : Table → Prop} {requests : List Request}
    (each : ∀ request ∈ requests, ∀ table, holds table → holds (table.step request).2)
    (start : holds table) : holds (table.serve requests).2 := by
  induction requests generalizing table with
  | nil => exact start
  | cons request later ih =>
      apply ih fun other member => each other (List.mem_cons_of_mem request member)
      exact each request List.mem_cons_self table start

theorem serve_wellKept (kept : WellKept table) (requests : List Request) :
    WellKept (table.serve requests).2 :=
  serve_keeps (fun request _ table => (step_effect table request).wellKept) kept

theorem serve_canonical {requests : List Request} (canonical : AllCanonical table)
    (written : ∀ rule, .addRule rule ∉ requests) : AllCanonical (table.serve requests).2 := by
  apply serve_keeps _ canonical
  intro request member table canonical
  apply (step_effect table request).canonical canonical
  rintro rule rfl
  exact written rule member

theorem serve_rules {requests : List Request} (kept : WellKept table)
    (stays : ∀ exchange ∈ (table.serve requests).1, ¬ exchange.Replaces) :
    (table.serve requests).2.rules =
      table.rules ++ (table.serve requests).1.flatMap Exchange.added := by
  induction requests generalizing table with
  | nil => simp [serve]
  | cons request later ih =>
      have effect := step_effect table request
      have first := effect.rules_eq kept (stays _ List.mem_cons_self)
      have others := ih (effect.wellKept kept) fun exchange member =>
        stays exchange (List.mem_cons_of_mem _ member)
      simp only [serve, List.flatMap_cons, others, first, List.append_assoc]

/-- Behind any of its exchanges, a session goes on like one that starts there. -/
theorem serve_split {requests : List Request} {front back : List Exchange}
    (split : (table.serve requests).1 = front ++ exchange :: back) :
    ∃ before middle later, Effect before exchange middle ∧
      middle.serve later = (back, (table.serve requests).2) := by
  induction requests generalizing table front with
  | nil => simp [serve] at split
  | cons request later ih =>
      cases front with
      | nil =>
          simp only [serve, List.nil_append, List.cons.injEq] at split
          obtain ⟨rfl, rfl⟩ := split
          exact ⟨table, _, later, step_effect table request, rfl⟩
      | cons first others =>
          simp only [serve, List.cons_append, List.cons.injEq] at split
          exact ih split.2

theorem serve_rules_since {requests : List Request} {front back : List Exchange} {reply : Reply}
    (split : (table.serve requests).1 = front ++ ⟨.read text, .ok reply⟩ :: back)
    (stays : ∀ exchange ∈ back, ¬ exchange.Replaces) :
    ∃ found, Table.read text = .ok found ∧
      (table.serve requests).2.rules = found.rules ++ back.flatMap Exchange.added := by
  obtain ⟨_, middle, later, effect, rest⟩ := serve_split split
  have read := effect.replaces rfl
  have rules := @serve_rules middle later (read_wellKept read) (by rwa [rest])
  rw [rest] at rules
  exact ⟨middle, read, rules⟩

theorem step_of_asks {request : Request} (asks : request.Asks) :
    (table.step request).2 = table := by
  have effect := step_effect table request
  generalize (table.step request).1 = reply, (table.step request).2 = next at effect
  cases effect with
  | refused | asked => rfl
  | replaced => exact asks.elim
  | added offered => rw [asks.rule?_eq_none] at offered; cases offered

theorem step_of_error {request : Request} {fault : Fault}
    (failed : (table.step request).1 = .error fault) : (table.step request).2 = table := by
  have effect := step_effect table request
  rw [failed] at effect
  generalize (table.step request).2 = next at effect
  cases effect with
  | refused => rfl

theorem step_rules_kept {request : Request} (kept : WellKept table)
    (stays : ∀ text, request ≠ .read text) : table.rules <+: (table.step request).2.rules ∧
      ∀ name rule, table.get name = .ok rule → (table.step request).2.get name = .ok rule := by
  have effect := step_effect table request
  have rules := effect.rules_eq kept fun ⟨text, _, same⟩ =>
    stays text (congrArg Exchange.request same)
  have longer : table.rules <+: (table.step request).2.rules := by
    rw [rules]
    exact List.prefix_append _ _
  refine ⟨longer, ?_⟩
  intro name rule found
  obtain ⟨member, named⟩ := kept.get_eq_ok_iff.mp found
  exact (effect.wellKept kept).get_eq_ok_iff.mpr ⟨longer.subset member, named⟩

/-- After any requests, whether they succeeded or not, the rules have different names, each is found
under its name, and the first one is the start. They are those of the text that was read last, in
its order, and behind them those that were added since, in theirs. A request that fails leaves the
table as it was, and so does one that asks for something; no rule is changed or taken away by an
addition. Where no rule was added without being read, all expressions are canonical. -/
theorem session_keeps_table (requests : List Request) : ∃ log table,
    empty.serve requests = (log, table) ∧ log.map (·.request) = requests ∧
    table.names.Nodup ∧
    (∀ name rule, table.get name = .ok rule ↔ rule ∈ table.rules ∧ rule.name = name) ∧
    table.start = table.rules.head?.map (·.name) ∧ (table.start = none ↔ table.rules = []) ∧
    (∀ front text reply back, log = front ++ ⟨.read text, .ok reply⟩ :: back →
      (∀ exchange ∈ back, ¬ exchange.Replaces) → ∃ found, Table.read text = .ok found ∧
        table.rules = found.rules ++ back.flatMap Exchange.added) ∧
    ((∀ exchange ∈ log, ¬ exchange.Replaces) → table.rules = log.flatMap Exchange.added) ∧
    (∀ request,
      (∀ fault, (table.step request).1 = .error fault → (table.step request).2 = table) ∧
      (request.Asks → (table.step request).2 = table) ∧
      ((∀ text, request ≠ .read text) → table.rules <+: (table.step request).2.rules ∧
        ∀ name rule, table.get name = .ok rule → (table.step request).2.get name = .ok rule)) ∧
    ((∀ rule, .addRule rule ∉ requests) → ∀ rule ∈ table.rules, Canonical rule.expression) := by
  have kept := serve_wellKept empty_wellKept requests
  refine ⟨_, _, rfl, serve_requests empty requests, kept.distinct, fun _ _ => kept.get_eq_ok_iff,
    ?_, ?_, fun _ _ _ _ => serve_rules_since, serve_rules empty_wellKept, ?_, ?_⟩
  · rw [kept.started]
    rfl
  · rw [kept.started]
    simp [ofRules]
  · intro request
    exact ⟨fun _ => step_of_error, step_of_asks, step_rules_kept kept⟩
  · intro written
    have none : AllCanonical empty := ⟨empty_wellKept, by simp [empty]⟩
    exact (serve_canonical none written).canonical

end Rulebook.Table
