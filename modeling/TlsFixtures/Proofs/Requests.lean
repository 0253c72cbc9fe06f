import Mathlib.Data.List.Pairwise
import TlsFixtures.Plan

/-! Plans and the requests that they are made of. Requests are sorted by a stable sort, so that the last request for
a variant is the first from behind and stays; nothing else of the requests is left in a plan. -/
namespace TlsFixtures.Plan

/-- The last request for a variant names this path. -/
def LastRequest (requests : List (Variant × String)) (v : Variant) (path : String) : Prop :=
  ∃ before after, requests = before ++ (v, path) :: after ∧ ∀ later ∈ after, later.1 ≠ v

/-- Outputs in generation order, one at most for a variant. -/
def Increasing (outputs : List (Variant × String)) : Prop := outputs.Pairwise fun a b => a.1.rank < b.1.rank

/-- What requests and inputs come to. Missing requests count before missing inputs. -/
inductive Normalises (requests : List (Variant × String)) (inputs : List String) : Except UsageError Plan → Prop where
  | noOutputs : requests = [] → Normalises requests inputs (.error .noOutputs)
  | noInputs : requests ≠ [] → inputs = [] → Normalises requests inputs (.error .noInputs)
  | planned {outputs : List (Variant × String)} : requests ≠ [] → inputs ≠ [] → Increasing outputs →
      (∀ v path, (v, path) ∈ outputs ↔ LastRequest requests v path) →
      Normalises requests inputs (.ok ⟨outputs, inputs⟩)

/-- The order that requests are sorted by. -/
def notLater (a b : Variant × String) : Bool := decide (a.1.rank ≤ b.1.rank)

variable {requests outputs : List (Variant × String)} {inputs : List String} {v : Variant} {path : String}

theorem rank_injective {v w : Variant} (same : v.rank = w.rank) : v = w := by
  revert same
  cases v <;> cases w <;> decide

theorem notLater_trans (a b c : Variant × String) (first : notLater a b = true) (second : notLater b c = true) :
    notLater a c = true := by
  simp only [notLater, decide_eq_true_eq] at *
  omega

theorem notLater_total (a b : Variant × String) : (notLater a b || notLater b a) = true := by
  simp only [notLater, Bool.or_eq_true, decide_eq_true_eq]
  omega

theorem insertByVariant_append {request : Variant × String} {front back : List (Variant × String)}
    (behind : ∀ other ∈ front, notLater request other = false)
    (before : ∀ other ∈ back, notLater request other = true) :
    insertByVariant request (front ++ back) = front ++ request :: back := by
  induction front with
  | nil =>
    cases back with
    | nil => rfl
    | cons first rest =>
      have here : request.1.rank ≤ first.1.rank := of_decide_eq_true (before first (.head _))
      simp only [List.nil_append, insertByVariant, if_pos here]
  | cons first front ih =>
    have later : ¬request.1.rank ≤ first.1.rank := of_decide_eq_false (behind first (.head _))
    simp only [List.cons_append, insertByVariant, if_neg later, ih fun other member => behind other (.tail _ member)]

/-- Sorting by variant is the stable sort of the library. -/
theorem sortByVariant_eq_mergeSort (requests : List (Variant × String)) :
    sortByVariant requests = requests.mergeSort notLater := by
  induction requests with
  | nil => simp [sortByVariant]
  | cons request rest ih =>
    obtain ⟨front, back, whole, split, behind⟩ := List.mergeSort_cons notLater_trans notLater_total request rest
    have sorted := List.pairwise_mergeSort notLater_trans notLater_total (request :: rest)
    rw [whole, List.pairwise_append, List.pairwise_cons] at sorted
    have insert : sortByVariant (request :: rest) = insertByVariant request (sortByVariant rest) := rfl
    have behind' : ∀ other ∈ front, notLater request other = false := by simpa using behind
    rw [insert, ih, split, whole, insertByVariant_append behind' sorted.2.1.1]

theorem sortByVariant_sorted (requests : List (Variant × String)) :
    (sortByVariant requests).Pairwise fun a b => a.1.rank ≤ b.1.rank := by
  rw [sortByVariant_eq_mergeSort]
  exact (List.pairwise_mergeSort notLater_trans notLater_total requests).imp of_decide_eq_true

/-- Sorting does not change the requests for a variant among themselves. -/
theorem filter_sortByVariant (requests : List (Variant × String)) (v : Variant) :
    (sortByVariant requests).filter (·.1 = v) = requests.filter (·.1 = v) := by
  have equal : (requests.filter (·.1 = v)).Pairwise fun a b => notLater a b = true := by
    apply List.pairwise_of_forall_mem_list
    intro a inFirst b inSecond
    have first := (List.mem_filter.mp inFirst).2
    have second := (List.mem_filter.mp inSecond).2
    simp_all [notLater]
  have kept : (requests.filter (·.1 = v)).Sublist (sortByVariant requests) := by
    rw [sortByVariant_eq_mergeSort]
    exact List.sublist_mergeSort notLater_trans notLater_total equal List.filter_sublist
  have inside := kept.filter (·.1 = v)
  rw [List.filter_filter] at inside
  simp only [Bool.and_self] at inside
  have perm : ((sortByVariant requests).filter (·.1 = v)).Perm (requests.filter (·.1 = v)) := by
    rw [sortByVariant_eq_mergeSort]
    exact (List.mergeSort_perm requests notLater).filter _
  exact (inside.eq_of_length perm.length_eq.symm).symm

/-- What is kept already stands in front of what is kept of the rest. -/
theorem eraseRepsBy_loop (r : α → α → Bool) (a : α) (l kept : List α) :
    List.eraseRepsBy.loop r a l kept = kept.reverse ++ List.eraseRepsBy.loop r a l [] := by
  induction l generalizing a kept with
  | nil => simp [List.eraseRepsBy.loop]
  | cons b l ih =>
    cases same : r a b with
    | true => simp only [List.eraseRepsBy.loop, same, ih a kept]
    | false =>
      simp only [List.eraseRepsBy.loop, same, ih b (a :: kept), ih b [a]]
      simp

/-- Of adjacent elements that belong together the first is kept. -/
theorem eraseRepsBy_cons_cons (r : α → α → Bool) (a b : α) (l : List α) : (a :: b :: l).eraseRepsBy r =
    if r a b then (a :: l).eraseRepsBy r else a :: (b :: l).eraseRepsBy r := by
  cases same : r a b with
  | true => simp only [List.eraseRepsBy, List.eraseRepsBy.loop, same, ↓reduceIte]
  | false =>
    simp only [List.eraseRepsBy, List.eraseRepsBy.loop, same, Bool.false_eq_true, ↓reduceIte]
    exact eraseRepsBy_loop r b l [a]

/-- In requests from the latest variant on, the first one of each is what is kept. -/
theorem mem_eraseRepsBy_iff {l : List (Variant × String)} (sorted : l.Pairwise fun a b => b.1.rank ≤ a.1.rank)
    (request : Variant × String) :
    request ∈ l.eraseRepsBy (fun a b => a.1 == b.1) ↔ l.find? (·.1 = request.1) = some request := by
  cases l with
  | nil => simp [List.eraseRepsBy]
  | cons a l =>
    induction l generalizing a with
    | nil =>
      by_cases same : a.1 = request.1
      · simp [List.eraseRepsBy, List.eraseRepsBy.loop, same, eq_comm]
      · have other : request ≠ a := by rintro rfl; exact same rfl
        simp [List.eraseRepsBy, List.eraseRepsBy.loop, same, other]
    | cons b l ih =>
      obtain ⟨lower, rest⟩ := List.pairwise_cons.mp sorted
      obtain ⟨lowerStill, last⟩ := List.pairwise_cons.mp rest
      rw [eraseRepsBy_cons_cons]
      by_cases twice : a.1 = b.1
      · have kept := ih a (List.pairwise_cons.mpr ⟨fun c member => lower c (.tail _ member), last⟩)
        rw [if_pos (beq_iff_eq.mpr twice), kept]
        simp only [List.find?_cons, twice]
        cases decide (b.1 = request.1) <;> rfl
      · rw [if_neg (mt beq_iff_eq.mp twice), List.mem_cons, ih b rest]
        have below : ∀ c ∈ b :: l, c.1.rank < a.1.rank := by
          have first : b.1.rank < a.1.rank :=
            Nat.lt_of_le_of_ne (lower b (.head _)) fun same => twice (rank_injective same).symm
          refine List.forall_mem_cons.mpr ⟨first, fun c member => ?_⟩
          exact Nat.lt_of_le_of_lt (lowerStill c member) first
        by_cases same : a.1 = request.1
        · have none : (b :: l).find? (·.1 = request.1) = none := by
            refine List.find?_eq_none.mpr fun c member found => ?_
            have equal : c.1 = request.1 := by simpa using found
            have := below c member
            rw [equal, same] at this
            exact Nat.lt_irrefl _ this
          rw [none, List.find?_cons, decide_eq_true same]
          simp [eq_comm]
        · have other : request ≠ a := by rintro rfl; exact same rfl
          rw [List.find?_cons (a := a), decide_eq_false same]
          simp [other]

theorem eraseRepsBy_decreasing {l : List (Variant × String)} (sorted : l.Pairwise fun a b => b.1.rank ≤ a.1.rank) :
    (l.eraseRepsBy fun a b => a.1 == b.1).Pairwise fun a b => b.1.rank < a.1.rank := by
  cases l with
  | nil => exact .nil
  | cons a l =>
    induction l generalizing a with
    | nil => exact List.pairwise_singleton _ _
    | cons b l ih =>
      obtain ⟨lower, rest⟩ := List.pairwise_cons.mp sorted
      obtain ⟨lowerStill, last⟩ := List.pairwise_cons.mp rest
      rw [eraseRepsBy_cons_cons]
      split
      next => exact ih a (List.pairwise_cons.mpr ⟨fun c member => lower c (.tail _ member), last⟩)
      next other =>
        have first : b.1.rank < a.1.rank :=
          Nat.lt_of_le_of_ne (lower b (.head _)) fun same => other (beq_iff_eq.mpr (rank_injective same).symm)
        refine List.pairwise_cons.mpr ⟨fun c member => ?_, ih b rest⟩
        have found := List.mem_of_find?_eq_some ((mem_eraseRepsBy_iff rest c).mp member)
        rcases List.mem_cons.mp found with rfl | later
        · exact first
        · exact Nat.lt_of_le_of_lt (lowerStill c later) first

theorem reverse_sorted (requests : List (Variant × String)) :
    (sortByVariant requests).reverse.Pairwise fun a b => b.1.rank ≤ a.1.rank :=
  List.pairwise_reverse.mpr (sortByVariant_sorted requests)

theorem orderedOutputs_increasing (requests : List (Variant × String)) : Increasing (orderedOutputs requests) :=
  List.pairwise_reverse.mpr (eraseRepsBy_decreasing (reverse_sorted requests))

theorem lastRequest_iff : LastRequest requests v path ↔ requests.reverse.find? (·.1 = v) = some (v, path) := by
  rw [List.find?_eq_some_iff_append]
  constructor
  · rintro ⟨before, after, rfl, apart⟩
    refine ⟨decide_eq_true rfl, after.reverse, before.reverse, by simp, fun later member => ?_⟩
    simpa using apart later (List.mem_reverse.mp member)
  · rintro ⟨_, after, before, whole, apart⟩
    refine ⟨before.reverse, after.reverse, ?_, fun later member => ?_⟩
    · rw [← List.reverse_reverse requests, whole]
      simp
    · simpa using apart later (List.mem_reverse.mp member)

theorem mem_orderedOutputs_iff : (v, path) ∈ orderedOutputs requests ↔ LastRequest requests v path := by
  have first : (sortByVariant requests).reverse.find? (·.1 = v) = requests.reverse.find? (·.1 = v) := by
    rw [← List.head?_filter, ← List.head?_filter, List.filter_reverse, List.filter_reverse, filter_sortByVariant]
  rw [orderedOutputs, List.mem_reverse, mem_eraseRepsBy_iff (reverse_sorted requests), first, lastRequest_iff]

/-- Outputs in order are known by which ones there are. -/
theorem Increasing.eq_of_mem_iff {others : List (Variant × String)} (increasing : Increasing outputs)
    (increasing' : Increasing others) (same : ∀ v path, (v, path) ∈ outputs ↔ (v, path) ∈ others) :
    outputs = others := by
  refine List.Perm.eq_of_pairwise (fun a b _ _ less greater => ?_) increasing increasing' ?_
  · exact absurd (Nat.lt_trans less greater) (Nat.lt_irrefl _)
  · have distinct : ∀ {l : List (Variant × String)}, Increasing l → l.Nodup := fun increasing =>
      increasing.imp fun {a b} less (same : a = b) => Nat.ne_of_lt less (by rw [same])
    exact (List.perm_ext_iff_of_nodup (distinct increasing) (distinct increasing')).mpr fun request =>
      same request.1 request.2

/-- The last request of all is the last one for its variant. -/
theorem exists_lastRequest_iff : (∃ v path, LastRequest requests v path) ↔ requests ≠ [] := by
  constructor
  · rintro ⟨v, path, before, after, rfl, _⟩
    simp
  · intro asked
    exact ⟨_, _, requests.dropLast, [], (List.dropLast_concat_getLast asked).symm, by simp⟩

theorem orderedOutputs_eq_nil_iff : orderedOutputs requests = [] ↔ requests = [] := by
  constructor
  · intro none
    by_contra asked
    obtain ⟨v, path, last⟩ := exists_lastRequest_iff.mpr asked
    exact absurd (mem_orderedOutputs_iff.mpr last) (none ▸ List.not_mem_nil)
  · rintro rfl
    rfl

theorem ofRequests_eq (requests : List (Variant × String)) (inputs : List String) :
    ofRequests requests inputs =
      if requests = [] then .error .noOutputs
      else if inputs = [] then .error .noInputs
      else .ok ⟨orderedOutputs requests, inputs⟩ := by
  have unasked : orderedOutputs requests = [] ↔ requests = [] := orderedOutputs_eq_nil_iff
  simp only [ofRequests, ← unasked]
  cases orderedOutputs requests <;> cases inputs <;> rfl

theorem normalises_ofRequests (requests : List (Variant × String)) (inputs : List String) :
    Normalises requests inputs (ofRequests requests inputs) := by
  rw [ofRequests_eq]
  by_cases unasked : requests = []
  · rw [if_pos unasked]
    exact .noOutputs unasked
  rw [if_neg unasked]
  by_cases absent : inputs = []
  · rw [if_pos absent]
    exact .noInputs unasked absent
  · rw [if_neg absent]
    exact .planned unasked absent (orderedOutputs_increasing requests) fun _ _ => mem_orderedOutputs_iff

theorem Normalises.unique {first second : Except UsageError Plan} (normalises : Normalises requests inputs first)
    (normalises' : Normalises requests inputs second) : first = second := by
  cases normalises with
  | noOutputs unasked =>
    cases normalises' with
    | noOutputs => rfl
    | noInputs asked | planned asked => exact absurd unasked asked
  | noInputs asked absent =>
    cases normalises' with
    | noOutputs unasked => exact absurd unasked asked
    | noInputs => rfl
    | planned _ present => exact absurd absent present
  | planned asked present increasing last =>
    cases normalises' with
    | noOutputs unasked => exact absurd unasked asked
    | noInputs _ absent => exact absurd absent present
    | planned _ _ increasing' last' =>
      rw [increasing.eq_of_mem_iff increasing' fun v path => (last v path).trans (last' v path).symm]

/-- Only the last request for each variant counts. -/
theorem Normalises.congr {others : List (Variant × String)} {outcome : Except UsageError Plan}
    (normalises : Normalises requests inputs outcome)
    (same : ∀ v path, LastRequest others v path ↔ LastRequest requests v path) :
    Normalises others inputs outcome := by
  have asked : others ≠ [] ↔ requests ≠ [] := by
    simp only [← exists_lastRequest_iff, same]
  cases normalises with
  | noOutputs unasked => exact .noOutputs (not_ne_iff.mp (mt asked.mp (not_ne_iff.mpr unasked)))
  | noInputs present absent => exact .noInputs (asked.mpr present) absent
  | planned present given increasing last =>
    exact .planned (asked.mpr present) given increasing fun v path => (last v path).trans (same v path).symm

/-- Of outputs that are in order each is the last request for its variant. -/
theorem Increasing.lastRequest_iff (increasing : Increasing outputs) :
    LastRequest outputs v path ↔ (v, path) ∈ outputs := by
  constructor
  · rintro ⟨before, after, rfl, _⟩
    exact List.mem_append_right _ (.head _)
  · intro member
    obtain ⟨before, after, rfl⟩ := List.append_of_mem member
    obtain ⟨_, rest, _⟩ := List.pairwise_append.mp increasing
    refine ⟨before, after, rfl, fun later inside same => ?_⟩
    have less : v.rank < later.1.rank := (List.pairwise_cons.mp rest).1 later inside
    exact Nat.ne_of_lt less (by rw [same])

/-- A list of requests is refused if it is empty, or else if there is no input; otherwise the plan has the last path for
each variant in generation order, and the inputs as they are. So requests with the same last paths make the same plan,
and the outputs of a plan as requests make that plan again. -/
theorem ofRequests_normalises (requests : List (Variant × String)) (inputs : List String) :
    (∀ outcome, ofRequests requests inputs = outcome ↔ Normalises requests inputs outcome) ∧
    (∀ others, (∀ v path, LastRequest others v path ↔ LastRequest requests v path) →
      ofRequests others inputs = ofRequests requests inputs) ∧
    ∀ plan, ofRequests requests inputs = .ok plan → ofRequests plan.outputs plan.inputs = .ok plan := by
  have settled := normalises_ofRequests requests inputs
  have alike : ∀ others, (∀ v path, LastRequest others v path ↔ LastRequest requests v path) →
      ofRequests others inputs = ofRequests requests inputs :=
    fun others same => (normalises_ofRequests others inputs).unique (settled.congr same)
  refine ⟨fun outcome => ⟨fun equal => equal ▸ settled, settled.unique⟩, alike, fun plan made => ?_⟩
  rw [made] at settled
  cases settled with
  | planned _ _ increasing last =>
    rw [← made]
    exact alike _ fun v path => increasing.lastRequest_iff.trans (last v path)

/-- Requests of two variants in turn, the later variant first: the path that comes last stays for each. -/
theorem ofRequests_normalises_interleaved :
    let requests : List (Variant × String) :=
      [(.ja4x, "a.rs"), (.ja4, "b.rs"), (.ja4x, "c.rs"), (.ja4, "d.rs"), (.ja4x, "e.rs")]
    let others : List (Variant × String) := [(.ja4x, "e.rs"), (.ja4, "d.rs")]
    let plan : Plan := ⟨[(.ja4, "d.rs"), (.ja4x, "e.rs")], ["p", "q", "p"]⟩
    (∀ v path, LastRequest others v path ↔ LastRequest requests v path) ∧
      ofRequests requests ["p", "q", "p"] = .ok plan ∧
      Normalises requests ["p", "q", "p"] (.ok plan) ∧
      ofRequests others ["p", "q", "p"] = .ok plan ∧
      ofRequests plan.outputs plan.inputs = .ok plan := by
  intro requests others plan
  have made : ofRequests requests ["p", "q", "p"] = .ok plan := rfl
  have same : ∀ v path, LastRequest others v path ↔ LastRequest requests v path := by
    intro v path
    rw [← mem_orderedOutputs_iff, ← mem_orderedOutputs_iff]
    exact Iff.rfl
  obtain ⟨settled, alike, again⟩ := ofRequests_normalises requests ["p", "q", "p"]
  exact ⟨same, made, (settled _).mp made, (alike others same).trans made, again plan made⟩

end TlsFixtures.Plan
