import Lookahead.FirstSets
import Lookahead.Proofs.Derivation

/-!
What a FIRST set should hold, said by derivations, and how far sets with that meaning carry it to
sequences. Sets that are closed under the productions hold all that they should.
-/

namespace Lookahead

/-- The meaning of FIRST: epsilon if the empty text is derived, and the terminals that derived forms
begin with. -/
def Grammar.Leads (g : Grammar) (sequence : List Nat) (i : Nat) : Prop :=
  i = epsilonIndex ∧ g.Vanishes sequence ∨ g.IsTerminal i ∧ g.Begins sequence i

namespace Grammar

variable {g : Grammar}

@[simp] theorem leads_epsilon {sequence : List Nat} :
    g.Leads sequence epsilonIndex ↔ g.Vanishes sequence := by
  constructor
  · intro either
    rcases either with ⟨-, vanishes⟩ | ⟨terminal, -⟩
    · exact vanishes
    · exact absurd rfl terminal.ne_epsilon
  · exact fun vanishes => .inl ⟨rfl, vanishes⟩

theorem leads_terminal_iff {sequence : List Nat} {t : Nat} (terminal : g.IsTerminal t) :
    g.Leads sequence t ↔ g.Begins sequence t := by
  constructor
  · intro either
    rcases either with ⟨rfl, -⟩ | ⟨-, begins⟩
    · exact absurd rfl terminal.ne_epsilon
    · exact begins
  · exact fun begins => .inr ⟨terminal, begins⟩

theorem Leads.epsilon_or_terminal {sequence : List Nat} {i : Nat} (leads : g.Leads sequence i) :
    i = epsilonIndex ∨ g.IsTerminal i :=
  leads.imp And.left And.left

theorem leads_append {left right : List Nat} {i : Nat} :
    g.Leads (left ++ right) i ↔
      g.Leads left i ∧ i ≠ epsilonIndex ∨ g.Leads left epsilonIndex ∧ g.Leads right i := by
  by_cases hidden : i = epsilonIndex
  · simp [hidden, vanishes_append]
  · simp only [Leads, hidden, begins_append, true_and, false_and, false_or, ne_eq, not_false_eq_true,
      and_true]
    constructor
    · intro given
      rcases given with ⟨terminal, first | ⟨vanishes, later⟩⟩
      · exact .inl ⟨terminal, first⟩
      · exact .inr ⟨.inl vanishes, terminal, later⟩
    · intro either
      rcases either with ⟨terminal, first⟩ | ⟨vanishes | ⟨other, -⟩, terminal, later⟩
      · exact ⟨terminal, .inl first⟩
      · exact ⟨terminal, .inr ⟨vanishes, later⟩⟩
      · exact absurd rfl other.ne_epsilon

theorem leads_cons {symbol : Nat} {rest : List Nat} {i : Nat} :
    g.Leads (symbol :: rest) i ↔
      g.Leads [symbol] i ∧ i ≠ epsilonIndex ∨ g.Vanishes [symbol] ∧ g.Leads rest i := by
  rw [← leads_epsilon]
  change g.Leads ([symbol] ++ rest) i ↔ _
  exact leads_append

theorem leads_nil {i : Nat} : g.Leads [] i ↔ i = epsilonIndex := by
  constructor
  · intro either
    rcases either with ⟨hidden, -⟩ | ⟨-, rest, derived⟩
    · exact hidden
    · simpa using derived.nil_eq
  · intro same
    subst same
    exact leads_epsilon.2 vanishes_nil

theorem leads_singleton_epsilon {i : Nat} : g.Leads [epsilonIndex] i ↔ i = epsilonIndex := leads_nil

private theorem derives_of_not_isNonTerminal {symbol : Nat} {result : List Nat}
    (other : ¬ g.isNonTerminal symbol) : g.Derives [symbol] result ↔ result = [symbol] := by
  constructor
  · intro derived
    rcases derived.singleton_cases with same | ⟨right, has, -⟩
    · exact same
    · exact absurd has.isNonTerminal other
  · intro same
    subst same
    exact .refl

theorem leads_of_not_isNonTerminal {symbol i : Nat} (other : ¬ g.isNonTerminal symbol)
    (shown : symbol ≠ epsilonIndex) : g.Leads [symbol] i ↔ i = symbol ∧ g.IsTerminal symbol := by
  simp only [Leads, Vanishes, Begins, visible_singleton shown, derives_of_not_isNonTerminal other]
  constructor
  · intro either
    rcases either with ⟨-, impossible⟩ | ⟨terminal, rest, same⟩
    · contradiction
    · obtain ⟨rfl, -⟩ := List.cons.inj same
      exact ⟨rfl, terminal⟩
  · intro given
    obtain ⟨rfl, terminal⟩ := given
    exact .inr ⟨terminal, [], rfl⟩

theorem leads_of_production {symbol i : Nat} {right : List Nat} (has : g.HasProduction symbol right)
    (leads : g.Leads right i) : g.Leads [symbol] i := by
  have shown : symbol ≠ epsilonIndex := by
    intro same
    subst same
    exact not_isNonTerminal_epsilon g has.isNonTerminal
  rcases leads with ⟨hidden, vanishes⟩ | ⟨terminal, rest, derived⟩
  · refine .inl ⟨hidden, ?_⟩
    rw [Vanishes, visible_singleton shown]
    exact derives_of_production has vanishes
  · refine .inr ⟨terminal, rest, ?_⟩
    rw [visible_singleton shown]
    exact derives_of_production has derived

theorem leads_of_isNonTerminal {symbol i : Nat} (nonTerminal : g.isNonTerminal symbol) :
    g.Leads [symbol] i ↔ ∃ right, g.HasProduction symbol right ∧ g.Leads right i := by
  have shown : symbol ≠ epsilonIndex := by
    intro same
    subst same
    exact not_isNonTerminal_epsilon g nonTerminal
  constructor
  · intro either
    rcases either with ⟨hidden, vanishes⟩ | ⟨terminal, rest, derived⟩
    · rw [Vanishes, visible_singleton shown] at vanishes
      rcases vanishes.singleton_cases with impossible | ⟨right, has, later⟩
      · contradiction
      · exact ⟨right, has, .inl ⟨hidden, later⟩⟩
    · rw [visible_singleton shown] at derived
      rcases derived.singleton_cases with same | ⟨right, has, later⟩
      · obtain ⟨rfl, -⟩ := List.cons.inj same
        exact absurd nonTerminal terminal.not_isNonTerminal
      · exact ⟨right, has, .inr ⟨terminal, rest, later⟩⟩
  · intro given
    obtain ⟨right, has, leads⟩ := given
    exact leads_of_production has leads

end Grammar

theorem IndexSet.mem_ite_epsilon {s t : IndexSet} {i : Nat} :
    i ∈ (if epsilonIndex ∈ s then s.erase epsilonIndex ∪ t else s) ↔
      i ∈ s ∧ i ≠ epsilonIndex ∨ epsilonIndex ∈ s ∧ i ∈ t := by
  split
  · simp [*]
  · rename_i solid
    simp only [solid, false_and, or_false, iff_self_and]
    exact fun member hidden => solid (hidden ▸ member)

namespace FirstSets

theorem mem_ofSequence_nil {first : FirstSets} {i : Nat} :
    i ∈ first.ofSequence [] ↔ i = epsilonIndex := by
  simp

theorem mem_ofSequence_cons {first : FirstSets} {symbol : Nat} {rest : List Nat} {i : Nat} :
    i ∈ first.ofSequence (symbol :: rest) ↔
      i ∈ first.get symbol ∧ i ≠ epsilonIndex ∨
        epsilonIndex ∈ first.get symbol ∧ i ∈ first.ofSequence rest := by
  rw [ofSequence_cons, IndexSet.mem_ite_epsilon]

theorem mem_ofSequence_singleton {first : FirstSets} {symbol i : Nat} :
    i ∈ first.ofSequence [symbol] ↔ i ∈ first.get symbol := by
  rw [mem_ofSequence_cons, mem_ofSequence_nil]
  by_cases hidden : i = epsilonIndex <;> simp [hidden]

theorem mem_ofSequence_append {first : FirstSets} {left right : List Nat} {i : Nat} :
    i ∈ first.ofSequence (left ++ right) ↔
      i ∈ first.ofSequence left ∧ i ≠ epsilonIndex ∨
        epsilonIndex ∈ first.ofSequence left ∧ i ∈ first.ofSequence right := by
  induction left with
  | nil => simp
  | cons symbol rest ih =>
    rw [List.cons_append, mem_ofSequence_cons, ih, mem_ofSequence_cons, mem_ofSequence_cons]
    constructor
    · intro either
      rcases either with ⟨head, shown⟩ | ⟨vanishing, ⟨inside, shown⟩ | ⟨later, behind⟩⟩
      · exact .inl ⟨.inl ⟨head, shown⟩, shown⟩
      · exact .inl ⟨.inr ⟨vanishing, inside⟩, shown⟩
      · exact .inr ⟨.inr ⟨vanishing, later⟩, behind⟩
    · intro either
      rcases either with ⟨⟨head, -⟩ | ⟨vanishing, inside⟩, shown⟩ | ⟨both, behind⟩
      · exact .inl ⟨head, shown⟩
      · exact .inr ⟨vanishing, .inl ⟨inside, shown⟩⟩
      · rcases both with ⟨-, impossible⟩ | ⟨vanishing, later⟩
        · exact absurd rfl impossible
        · exact .inr ⟨vanishing, .inr ⟨later, behind⟩⟩

theorem mem_ofSequence_append_mono {first : FirstSets} {left left' right right' : List Nat}
    (front : ∀ i ∈ first.ofSequence left, i ∈ first.ofSequence left')
    (back : ∀ i ∈ first.ofSequence right, i ∈ first.ofSequence right') {i : Nat}
    (member : i ∈ first.ofSequence (left ++ right)) : i ∈ first.ofSequence (left' ++ right') := by
  rw [mem_ofSequence_append] at member ⊢
  rcases member with ⟨inside, shown⟩ | ⟨vanishing, behind⟩
  · exact .inl ⟨front i inside, shown⟩
  · exact .inr ⟨front epsilonIndex vanishing, back i behind⟩

variable {g : Grammar} {first : FirstSets}

theorem leads_of_mem_ofSequence (sound : ∀ symbol, ∀ i ∈ first.get symbol, g.Leads [symbol] i)
    {sequence : List Nat} {i : Nat} (member : i ∈ first.ofSequence sequence) :
    g.Leads sequence i := by
  induction sequence with
  | nil => exact Grammar.leads_nil.2 (mem_ofSequence_nil.1 member)
  | cons symbol rest ih =>
    rw [Grammar.leads_cons]
    rcases mem_ofSequence_cons.1 member with ⟨head, shown⟩ | ⟨vanishing, tail⟩
    · exact .inl ⟨sound symbol i head, shown⟩
    · exact .inr ⟨Grammar.leads_epsilon.1 (sound symbol epsilonIndex vanishing), ih tail⟩

structure Closed (g : Grammar) (first : FirstSets) : Prop where
  epsilon : epsilonIndex ∈ first.get epsilonIndex
  terminal : ∀ t, g.IsTerminal t → t ∈ first.get t
  production : ∀ symbol right, g.HasProduction symbol right →
    ∀ i ∈ first.ofSequence right, i ∈ first.get symbol

private theorem Closed.mem_of_visible (closed : Closed g first) {sequence : List Nat} {i : Nat}
    (member : i ∈ first.ofSequence (Grammar.visible sequence)) : i ∈ first.ofSequence sequence := by
  induction sequence with
  | nil => exact member
  | cons symbol rest ih =>
    rw [mem_ofSequence_cons]
    by_cases hidden : symbol = epsilonIndex
    · subst hidden
      exact .inr ⟨closed.epsilon, ih member⟩
    · rw [Grammar.visible_cons, Grammar.visible_singleton hidden, List.singleton_append,
        mem_ofSequence_cons] at member
      exact member.imp_right (And.imp_right ih)

private theorem Closed.mem_of_derives (closed : Closed g first) {form result : List Nat} {i : Nat}
    (derived : g.Derives form result) (member : i ∈ first.ofSequence result) :
    i ∈ first.ofSequence form := by
  induction derived generalizing i with
  | refl => exact member
  | tail _ step ih =>
    apply ih
    -- rewriting a symbol only takes away from the set of the form
    obtain ⟨before, symbol, right, after, rfl, has, rfl⟩ := step.exists_parts
    have inner (j : Nat) (inside : j ∈ first.ofSequence (Grammar.visible right)) :
        j ∈ first.ofSequence [symbol] :=
      mem_ofSequence_singleton.2 (closed.production symbol right has j (closed.mem_of_visible inside))
    rw [List.append_assoc] at member
    rw [← List.singleton_append]
    refine mem_ofSequence_append_mono (fun _ inside => inside) ?_ member
    intro j inside
    exact mem_ofSequence_append_mono inner (fun _ inside => inside) inside

theorem Closed.mem_of_leads (closed : Closed g first) {sequence : List Nat} {i : Nat}
    (leads : g.Leads sequence i) : i ∈ first.ofSequence sequence := by
  apply closed.mem_of_visible
  rcases leads with ⟨rfl, vanishes⟩ | ⟨terminal, rest, derived⟩
  · exact closed.mem_of_derives vanishes (mem_ofSequence_nil.2 rfl)
  · apply closed.mem_of_derives derived
    rw [mem_ofSequence_cons]
    exact .inl ⟨closed.terminal i terminal, terminal.ne_epsilon⟩

end FirstSets

end Lookahead
