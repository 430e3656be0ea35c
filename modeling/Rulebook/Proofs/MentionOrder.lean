import Rulebook.Proofs.TreePlaces

/-!
The order in which dangling names are listed. A name stands where the first reference to it stands,
in the order of the places in the rules; this says what the list is without saying how it is made.
A rule that is added takes its own name off the list, and what only it refers to comes behind the
names that are left.
-/

namespace Rulebook.Table

open Rulebook.Expr (InPreorder)

variable {known : List Char → Bool} {names listed front back : List (List Char)}
  {name : List Char} {nodeAt? : List Nat → Option Expr} {nodes : List Expr}

/-- The node at a place in the rules. The first number picks the rule, the others a place in its
expression. -/
def at? (table : Table) : List Nat → Option Expr :=
  Expr.among? (table.rules.map (·.expression))

/-- Some reference to the first name comes before every reference to the second. -/
def MentionedBefore (nodeAt? : List Nat → Option Expr) (first second : List Char) : Prop :=
  ∃ place, nodeAt? place = some (.reference first) ∧
    ∀ other, nodeAt? other = some (.reference second) → place < other

/-- The wanted names among those that are referred to, each of them once, in the order of the first
references to them. -/
structure FirstMentions (nodeAt? : List Nat → Option Expr) (wanted : List Char → Prop)
    (names : List (List Char)) : Prop where
  distinct : names.Nodup
  mem_iff : ∀ name, name ∈ names ↔
    wanted name ∧ ∃ place, nodeAt? place = some (.reference name)
  ordered : names.Pairwise (MentionedBefore nodeAt?)

theorem FirstMentions.congr {wanted wanted' : List Char → Prop}
    (mentions : FirstMentions nodeAt? wanted names) (same : ∀ name, wanted name ↔ wanted' name) :
    FirstMentions nodeAt? wanted' names := by
  have wants : wanted = wanted' := funext fun name => propext (same name)
  rwa [← wants]

theorem MentionedBefore.asymm {first second : List Char}
    (before : MentionedBefore nodeAt? first second) : ¬ MentionedBefore nodeAt? second first := by
  intro after
  obtain ⟨place, found, earliest⟩ := before
  obtain ⟨place', found', earliest'⟩ := after
  exact List.lt_asymm (earliest place' found') (earliest' place found)

theorem FirstMentions.unique {wanted : List Char → Prop} {others : List (List Char)}
    (mentions : FirstMentions nodeAt? wanted names)
    (mentions' : FirstMentions nodeAt? wanted others) : names = others := by
  have members : names.Perm others := by
    rw [List.perm_ext_iff_of_nodup mentions.distinct mentions'.distinct]
    intro name
    rw [mentions.mem_iff, mentions'.mem_iff]
  apply members.eq_of_pairwise _ mentions.ordered mentions'.ordered
  intro first second _ _ before after
  exact absurd after before.asymm

/-! ## Collecting in order -/

theorem collect_append (known : List Char → Bool) (front back listed : List (List Char)) :
    collect known (front ++ back) listed = collect known back (collect known front listed) := by
  induction front generalizing listed with
  | nil => rfl
  | cons name front ih =>
      simp only [List.cons_append, collect]
      split
      · exact ih listed
      · exact ih (listed ++ [name])

theorem collect_eq_append (known : List Char → Bool) (names listed : List (List Char)) :
    collect known names listed =
      listed ++ collect (fun name => known name || listed.contains name) names [] := by
  induction names generalizing known listed with
  | nil => simp [collect]
  | cons name names ih =>
      simp only [collect, List.contains_nil, Bool.or_false]
      split
      · exact ih known listed
      · rw [ih known (listed ++ [name]), List.nil_append, ih _ [name], List.append_assoc]
        simp [Bool.or_assoc]

theorem collect_cons_new (unknown : known name = false) (others : List (List Char)) :
    collect known (name :: others) [] =
      name :: collect (fun other => known other || [name].contains other) others [] := by
  simp only [collect, unknown, List.contains_nil, Bool.or_false, Bool.false_eq_true, if_false,
    List.nil_append]
  exact collect_eq_append known others [name]

theorem collect_learned (known : List Char → Bool) (name : List Char)
    (names listed : List (List Char)) :
    collect (fun other => known other || other == name) names (listed.filter (· != name)) =
      (collect known names listed).filter (· != name) := by
  -- The name that is known now may have been listed before, so the lists to compare differ by it
  -- all along the induction.
  induction names generalizing listed with
  | nil => rfl
  | cons first names ih =>
      by_cases learned : first = name
      · subst learned
        simp only [collect, beq_self_eq_true, Bool.or_true, Bool.true_or, if_true]
        split
        · exact ih listed
        · have same : (listed ++ [first]).filter (· != first) = listed.filter (· != first) := by
            simp
          rw [← ih (listed ++ [first]), same]
      · have kept : (listed.filter (· != name)).contains first = listed.contains first := by
          simp [learned]
        have more : (listed ++ [first]).filter (· != name) =
            listed.filter (· != name) ++ [first] := by
          simp [learned]
        simp only [collect, kept, beq_eq_false_iff_ne.mpr learned, Bool.or_false]
        split
        · exact ih listed
        · rw [← more, ih (listed ++ [first])]

/-- Of names that are seen at places, in the order of the places, those that are collected keep the
order of the places where they are first seen. -/
theorem collect_ordered {seen : List (List Nat × List Char)}
    (sorted : seen.Pairwise fun earlier later => earlier.1 < later.1) :
    (collect known (seen.map Prod.snd) []).Pairwise fun first second =>
      ∃ place, (place, first) ∈ seen ∧ ∀ other, (other, second) ∈ seen → place < other := by
  induction seen generalizing known with
  | nil => exact List.Pairwise.nil
  | cons visit seen ih =>
      obtain ⟨place, name⟩ := visit
      obtain ⟨earliest, later⟩ := List.pairwise_cons.mp sorted
      -- a name that is not the first one seen has the same places in what is left
      have elsewhere : ∀ {other : List Char}, other ≠ name → ∀ inner,
          (inner, other) ∈ (place, name) :: seen → (inner, other) ∈ seen := by
        intro other different inner member
        simpa [different] using member
      have kept : ∀ {unlisted : List Char → Bool}, unlisted name = true →
          (collect unlisted (seen.map Prod.snd) []).Pairwise fun first second =>
            ∃ inner, (inner, first) ∈ (place, name) :: seen ∧
              ∀ other, (other, second) ∈ (place, name) :: seen → inner < other := by
        intro unlisted passed
        apply (ih later).imp_of_mem
        rintro first second _ member ⟨inner, found, before⟩
        have unknown : unlisted second = false := ((mem_collect.mp member).resolve_left nofun).2
        have different : second ≠ name := by
          rintro rfl
          exact absurd passed (by simp [unknown])
        exact ⟨inner, List.mem_cons_of_mem _ found, fun other within =>
          before other (elsewhere different other within)⟩
      rw [List.map_cons]
      by_cases passed : known name = true
      · have skipped : collect known (name :: seen.map Prod.snd) [] =
            collect known (seen.map Prod.snd) [] := by
          simp [collect, passed]
        rw [skipped]
        exact kept passed
      · rw [collect_cons_new (by simpa using passed), List.pairwise_cons]
        refine ⟨?_, kept (by simp)⟩
        intro second member
        obtain ⟨_, unknown⟩ := (mem_collect.mp member).resolve_left nofun
        have different : second ≠ name := by
          rintro rfl
          simp at unknown
        exact ⟨place, List.mem_cons_self, fun other within =>
          earliest _ (elsewhere different other within)⟩

theorem collect_firstMentions (inOrder : InPreorder nodeAt? nodes) :
    FirstMentions nodeAt? (known · = false)
      (collect known (nodes.filterMap Expr.referenceName?) []) := by
  obtain ⟨visits, visiting, rfl⟩ := inOrder
  -- the visits that are references, with the names in place of the nodes
  let seen : List (List Nat × List Char) :=
    visits.filterMap fun visit => visit.2.referenceName?.map (visit.1, ·)
  have mem_seen : ∀ place name,
      (place, name) ∈ seen ↔ nodeAt? place = some (.reference name) := by
    intro place name
    rw [← visiting.mem_iff]
    simp [seen, referenceName?_eq_some_iff]
  have names : (visits.map Prod.snd).filterMap Expr.referenceName? = seen.map Prod.snd := by
    simp [seen, List.filterMap_map, List.map_filterMap, Function.comp_def]
  have sorted : seen.Pairwise fun earlier later => earlier.1 < later.1 := by
    rw [List.pairwise_filterMap]
    apply visiting.sorted.imp
    rintro ⟨place, _⟩ ⟨place', _⟩ before ⟨_, _⟩ found ⟨_, _⟩ found'
    simp only [Option.map_eq_some_iff, Prod.mk.injEq] at found found'
    obtain ⟨_, _, rfl, _⟩ := found
    obtain ⟨_, _, rfl, _⟩ := found'
    exact before
  rw [names]
  constructor
  · exact nodup_collect List.nodup_nil
  · intro name
    simp only [mem_collect, List.not_mem_nil, false_or, List.mem_map, Prod.exists, exists_eq_right,
      mem_seen]
    exact and_comm
  · apply (collect_ordered sorted).imp
    intro first second before
    simpa only [mem_seen, MentionedBefore] using before

/-! ## Tables -/

variable {table next : Table} {rule : Rule}

theorem references_eq (table : Table) : table.references =
    ((table.rules.map (·.expression)).flatMap Expr.walk).filterMap Expr.referenceName? := by
  simp [references, List.filterMap_flatMap, List.flatMap_map]

theorem dangling_firstMentions (table : Table) :
    FirstMentions table.at? (· ∉ table.names) table.dangling := by
  have inOrder : InPreorder table.at? ((table.rules.map (·.expression)).flatMap Expr.walk) :=
    Expr.inPreorder_walks _
  have mentions : FirstMentions table.at? (table.defines · = false) table.dangling := by
    rw [dangling, references_eq]
    exact collect_firstMentions inOrder
  exact mentions.congr fun name => defines_eq_false_iff

theorem add_of_new (new : rule.name ∉ table.names) : ∃ next, table.add rule = .ok next ∧
    next.rules = table.rules ++ [rule] := by
  rw [add, enter_of_new (defines_eq_false_iff.mpr new)]
  exact ⟨_, rfl, rfl⟩

theorem dangling_added (added : next.rules = table.rules ++ [rule]) : ∃ later,
    FirstMentions rule.expression.at? (fun name => name ∉ next.names ∧ name ∉ table.dangling)
      later ∧ next.dangling = table.dangling.filter (· != rule.name) ++ later := by
  have names : next.names = table.names ++ [rule.name] := by simp [Table.names, added]
  have known : next.defines = fun name => table.defines name || name == rule.name := by
    funext name
    rw [Bool.eq_iff_iff, defines_iff, names]
    simp [defines_iff]
  have references : next.references =
      table.references ++ rule.expression.walk.filterMap Expr.referenceName? := by
    simp [Table.references, added]
  have learned := collect_learned table.defines rule.name table.references []
  rw [List.filter_nil, ← known] at learned
  have dangling : next.dangling = table.dangling.filter (· != rule.name) ++
      collect (fun name => next.defines name ||
          (table.dangling.filter (· != rule.name)).contains name)
        (rule.expression.walk.filterMap Expr.referenceName?) [] := by
    rw [Table.dangling, references, collect_append, learned, collect_eq_append]
    rfl
  -- what the new rule refers to comes behind the names that stay on the list
  refine ⟨_, (collect_firstMentions (Expr.inPreorder_walk rule.expression)).congr ?_, dangling⟩
  intro name
  rw [Bool.or_eq_false_iff, defines_eq_false_iff, ← Bool.not_eq_true, List.contains_iff_mem]
  simp only [List.mem_filter, bne_iff_ne, names, List.mem_append, List.mem_singleton]
  tauto

/-- The dangling names are those that some rule refers to, at any depth, and no rule has; each is
listed once, in the order in which the places in the rules come, and no other list is like this. A
rule with a new name can be added, and then its name is off the list, and behind the others come the
names without a rule that it refers to and that were not listed, in their order in it. -/
theorem dangling_lists_first_mentions (table : Table) :
    (∀ names, FirstMentions table.at? (· ∉ table.names) names ↔ names = table.dangling) ∧
    ∀ rule, rule.name ∉ table.names → ∃ next later, table.add rule = .ok next ∧
      FirstMentions rule.expression.at? (fun name => name ∉ next.names ∧ name ∉ table.dangling)
        later ∧
      next.dangling = table.dangling.filter (· != rule.name) ++ later := by
  constructor
  · intro names
    constructor
    · intro mentions
      exact mentions.unique (dangling_firstMentions table)
    · rintro rfl
      exact dangling_firstMentions table
  · intro rule new
    obtain ⟨next, added, rules⟩ := add_of_new new
    obtain ⟨later, mentions, dangling⟩ := dangling_added rules
    exact ⟨next, later, added, mentions, dangling⟩

/-- A rule that defines a dangling name and refers to it, to an old one and twice to a new one. -/
example :
    let table : Table :=
      ⟨[⟨['a'], .union [.reference ['b'], .reference ['c']]⟩], some ['a']⟩
    let rule : Rule := ⟨['b'], .sequence
      [.reference ['d'], .reference ['b'], .reference ['c'], .reference ['d']]⟩
    table.dangling = [['b'], ['c']] ∧
      (table.add rule).map dangling = .ok [['c'], ['d']] := by
  exact ⟨rfl, rfl⟩

end Rulebook.Table
