import OverlayWatch.Proofs.Delivery.Moments

/-!
# Operations and their moves

An operation of a delivery is what its moves come to if nobody makes another one in between.  So what
holds whatever moves are made holds of all operations, in any order, and of what else can come of them
when others are at work.

* `Traffic.Operation`        an operation of the delivery, or a call that a drain task makes;
* `Traffic.perform`          it is performed from start to end;
* `Operation.moves`          the moves that it consists of, the first one and the rest;
* `Traffic.IsFree`           nothing is locked: no callback is being queued, and no task looks at its
                             queue;
* `run_posts`                a callback that is queued for one registration after the other;
* `IsFree.run_moves`         where nothing is locked, to perform an operation is to make its moves;
* `Traffic.Occasion`, `performAll`   operations one after the other, and what the executor says to each;
* `IsFree.passAll_momentsOf`   they are moments one after the other;
* `Visit`                    a listener that is registered where only operations are performed;
* `Visit.attendance`         one way of attending.
-/

namespace OverlayWatch

/-- a callback ends well when it has no calls left, and fails in a call -/
def Turn.mayEnd {γ : Type} : Turn γ → Option Failure → Bool
  | .inHand _ [], none => true
  | .inHand true _, some _ => true
  | _, _ => false

theorem Turn.mayEnd_none {γ : Type} (begun : Bool) :
    (Turn.inHand begun ([] : List γ)).mayEnd none = true := rfl

theorem Turn.mayEnd_some {γ : Type} (left : List γ) (failure : Failure) :
    (Turn.inHand true left).mayEnd (some failure) = true := by
  cases left <;> rfl

theorem Turn.of_mayEnd_none {γ : Type} {turn : Turn γ} (h : turn.mayEnd none = true) :
    ∃ begun, turn = .inHand begun [] := by
  rcases turn with _ | ⟨begun, _ | ⟨call, left⟩⟩ | _
  · cases h
  · exact ⟨begun, rfl⟩
  · cases begun <;> cases h
  · cases h

theorem Turn.of_mayEnd_some {γ : Type} {turn : Turn γ} {failure : Failure}
    (h : turn.mayEnd (some failure) = true) : ∃ left, turn = .inHand true left := by
  rcases turn with _ | ⟨_ | _, left⟩ | _
  · cases h
  · cases left <;> cases h
  · exact ⟨left, rfl⟩
  · cases h

namespace Traffic

variable {κ γ : Type}

inductive Operation (κ : Type) where
  | register (initial : Option κ)
  | remove (r : Registration)
  | enqueue (c : κ)
  | poll (r : Registration)
  | call (r : Registration)
  | settle (r : Registration) (outcome : Option Failure)
  | note (events : List Event)

/-- `calls` are the calls that a callback consists of -/
def perform (calls : κ → List γ) (t : Traffic κ γ) : Operation κ → Option (Traffic κ γ)
  | .register initial => some { t with delivery := (t.delivery.register initial).2 }
  | .remove r => some { t with delivery := (t.delivery.remove r).2 }
  | .enqueue c => some { t with delivery := t.delivery.enqueue c }
  | .poll r =>
    if r ∈ t.delivery.executor.tasks ∧ t.underway[r]? = none then
      let (taken, delivery) := t.delivery.poll r
      some { t with
        delivery
        underway := taken.elim t.underway fun c => t.underway.insert r (.inHand false (calls c)) }
    else none
  | .call r => t.step calls (.call r)
  | .settle r outcome =>
    if t.underway[r]?.any (Turn.mayEnd · outcome) then
      some { t with
        delivery := t.delivery.settle r outcome
        underway := t.underway.erase r }
    else none
  | .note events => some { t with delivery := t.delivery.noteAll events }

/-- the move with which the operation starts -/
def Operation.first : Operation κ → Move κ
  | .register initial => .register initial
  | .remove r => .remove r
  | .enqueue c => .enqueue c
  | .poll r => .look r
  | .call r => .call r
  | .settle r none => .finish r
  | .settle r (some failure) => .fail r failure
  | .note events => .note events

def Operation.rest (t : Traffic κ γ) : Operation κ → List (Move κ)
  | .enqueue _ => t.delivery.registered.map .post
  | .poll r => if t.delivery.isRegistered r then [.take r] else []
  | .settle r (some _) => if t.delivery.policy = .cancel then [.cancel r] else []
  | _ => []

def Operation.moves (t : Traffic κ γ) (o : Operation κ) : List (Move κ) := o.first :: o.rest t

/-- an operation goes on with such moves -/
def Move.GoesOn : Move κ → Prop
  | .post _ => True
  | .take _ => True
  | .cancel _ => True
  | _ => False

theorem Operation.goesOn_of_mem_rest {o : Operation κ} {t : Traffic κ γ} {m : Move κ}
    (h : m ∈ o.rest t) : m.GoesOn := by
  cases o with
  | enqueue c =>
    obtain ⟨q, -, rfl⟩ := List.mem_map.1 h
    trivial
  | poll r =>
    obtain rfl := List.mem_singleton.1 (List.mem_ite_nil_right.1 h).2
    trivial
  | settle r outcome =>
    cases outcome with
    | none => cases h
    | some failure =>
      obtain rfl := List.mem_singleton.1 (List.mem_ite_nil_right.1 h).2
      trivial
  | register initial => cases h
  | remove r => cases h
  | call r => cases h
  | note events => cases h

def run (calls : κ → List γ) : Traffic κ γ → List (Move κ) → Option (Traffic κ γ)
  | t, [] => some t
  | t, m :: rest => (t.step calls m).bind fun u => u.run calls rest

structure IsFree (t : Traffic κ γ) : Prop where
  registry : t.posting.isEmpty = true
  queues : ∀ r, t.isLooking r = false

variable {calls : κ → List γ} {t u : Traffic κ γ} {r : Registration}

theorem run_cons {m : Move κ} (h : t.step calls m = some u) (rest : List (Move κ)) :
    t.run calls (m :: rest) = u.run calls rest := by
  rw [run, h]
  rfl

/-! ## queueing -/

theorem erase_addressed {c : κ} {r : Registration} {rs : List Registration} (hr : r ∉ rs) :
    (addressed c (r :: rs)).erase r = addressed c rs := by
  apply Std.ExtTreeMap.ext_getElem?
  intro q
  rw [Std.ExtTreeMap.getElem?_erase, getElem?_addressed, getElem?_addressed]
  by_cases h : r = q
  · subst h
    simp [hr]
  · simp [h, Ne.symm h]

theorem run_posts (c : κ) {rs : List Registration} (hd : rs.Nodup) (hq : ∀ r, t.isLooking r = false)
    (hp : t.posting = addressed c rs) : t.run calls (rs.map .post) =
      some { t with delivery := rs.foldl (Delivery.push · c) t.delivery, posting := ∅ } := by
  induction rs generalizing t with
  | nil =>
    obtain ⟨delivery, posting, underway, made⟩ := t
    obtain rfl : posting = ∅ := hp
    rfl
  | cons r rs ih =>
    obtain ⟨hr, hd⟩ := List.nodup_cons.1 hd
    have hc : t.posting[r]? = some c := by
      rw [hp, getElem?_addressed, if_pos List.mem_cons_self]
    have hs : t.step calls (.post r) = some { t with
        delivery := t.delivery.push c r
        posting := t.posting.erase r } := by
      simp [step, hc, hq r]
    rw [List.map_cons, run_cons hs]
    refine ih hd hq ?_
    show t.posting.erase r = _
    rw [hp, erase_addressed hr]

/-! ## a turn -/

section
variable (w : Std.ExtTreeMap Registration (Turn γ)) (r : Registration) (turn : Turn γ)

theorem insert_insert (other : Turn γ) : (w.insert r turn).insert r other = w.insert r other := by
  apply Std.ExtTreeMap.ext_getElem?
  intro q
  by_cases h : r = q
  · subst h
    rw [Std.ExtTreeMap.getElem?_insert_self, Std.ExtTreeMap.getElem?_insert_self]
  · simp only [getElem?_underway_insert _ _ h]

theorem erase_insert : (w.insert r turn).erase r = w.erase r := by
  apply Std.ExtTreeMap.ext_getElem?
  intro q
  by_cases h : r = q
  · subst h
    rw [Std.ExtTreeMap.getElem?_erase_self, Std.ExtTreeMap.getElem?_erase_self]
  · simp only [getElem?_underway_insert _ _ h, getElem?_underway_erase _ h]

theorem erase_of_idle {w : Std.ExtTreeMap Registration (Turn γ)} {r : Registration}
    (h : w[r]? = none) : w.erase r = w := by
  apply Std.ExtTreeMap.ext_getElem?
  intro q
  by_cases e : r = q
  · subst e
    rw [Std.ExtTreeMap.getElem?_erase_self, h]
  · exact getElem?_underway_erase _ e

end

/-- the task looks, and may go on, and takes a callback or ends -/
theorem run_poll (hr : r ∈ t.delivery.executor.tasks) (hn : t.underway[r]? = none)
    (hreg : t.delivery.isRegistered r = true) : t.run calls [.look r, .take r] = some { t with
      delivery := (t.delivery.poll r).2
      underway := (t.delivery.poll r).1.elim t.underway fun c =>
        t.underway.insert r (.inHand false (calls c)) } := by
  obtain ⟨hl, hp⟩ := Delivery.poll_of_registered hreg
  rw [run_cons (step_look hr hn), hl, if_pos hreg]
  have hw : (t.underway.insert r .looking)[r]? = some .looking :=
    Std.ExtTreeMap.getElem?_insert_self
  rw [run_cons (step_take hw), run, hp]
  cases (t.delivery.pop r).1 with
  | none => simp only [Option.elim_none, erase_insert, erase_of_idle hn]
  | some c => simp only [Option.elim_some, insert_insert]

/-- the task looks, and ends because its registration is over -/
theorem run_poll_cancelled (hr : r ∈ t.delivery.executor.tasks) (hn : t.underway[r]? = none)
    (hreg : t.delivery.isRegistered r = false) :
    t.run calls [.look r] = some { t with delivery := (t.delivery.poll r).2 } := by
  rw [run_cons (step_look hr hn), Delivery.poll_of_not_registered hreg, run, hreg]
  rfl

theorem run_settle {left : List γ} (hf : t.posting.isEmpty = true)
    (hw : t.underway[r]? = some (.inHand true left)) (failure : Failure) :
    t.run calls (.fail r failure :: if t.delivery.policy = .cancel then [.cancel r] else []) =
      some { t with
        delivery := t.delivery.settle r (some failure)
        underway := t.underway.erase r } := by
  have hs : t.step calls (.fail r failure) = some { t with
      delivery := t.delivery.fail r failure
      underway :=
        if t.delivery.policy = .cancel then t.underway.insert r .failed
        else t.underway.erase r } := by
    rw [step, hw]
  rw [run_cons hs, Delivery.settle]
  by_cases hp : t.delivery.policy = .cancel
  · rw [if_pos hp, if_pos hp, if_pos hp]
    have hc : (t.underway.insert r .failed)[r]? = some .failed :=
      Std.ExtTreeMap.getElem?_insert_self
    have hc : step calls { t with
        delivery := t.delivery.fail r failure
        underway := t.underway.insert r .failed } (.cancel r) = some { t with
          delivery := (t.delivery.fail r failure).cancel r
          underway := (t.underway.insert r .failed).erase r } := by
      rw [step, hc, hf]
    rw [run_cons hc, run, erase_insert]
  · rw [if_neg hp, if_neg hp, if_neg hp]
    rfl

/-! ## an operation -/

section
variable {o : Operation κ}

theorem of_poll (h : t.perform calls (.poll r) = some u) :
    r ∈ t.delivery.executor.tasks ∧ t.underway[r]? = none ∧ u = { t with
      delivery := (t.delivery.poll r).2
      underway := (t.delivery.poll r).1.elim t.underway fun c =>
        t.underway.insert r (.inHand false (calls c)) } := by
  obtain ⟨hr, hu⟩ := Option.ite_none_right_eq_some.1 h
  exact ⟨hr.1, hr.2, (Option.some.inj hu).symm⟩

theorem of_settle {outcome : Option Failure} (h : t.perform calls (.settle r outcome) = some u) :
    ∃ turn, t.underway[r]? = some turn ∧ turn.mayEnd outcome = true ∧ u = { t with
      delivery := t.delivery.settle r outcome
      underway := t.underway.erase r } := by
  obtain ⟨hm, hu⟩ := Option.ite_none_right_eq_some.1 h
  obtain ⟨turn, hw, hm⟩ := (Option.any_eq_true _ _).1 hm
  exact ⟨turn, hw, hm, (Option.some.inj hu).symm⟩

/-- **An operation is its moves**, one after the other, where nothing is locked -/
theorem IsFree.run_moves (h : t.IsFree) (hu : t.perform calls o = some u) :
    t.run calls (o.moves t) = some u := by
  cases o with
  | register initial =>
    obtain rfl := Option.some.inj hu
    rw [Operation.moves, Operation.first, run, step, if_pos h.registry]
    rfl
  | remove r =>
    obtain rfl := Option.some.inj hu
    rw [Operation.moves, Operation.first, run, step, if_pos h.registry]
    rfl
  | enqueue c =>
    obtain rfl := Option.some.inj hu
    have hs : t.step calls (.enqueue c) =
        some { t with posting := addressed c t.delivery.registered } := if_pos h.registry
    have hp : t.posting = ∅ := Std.ExtTreeMap.isEmpty_iff.1 h.registry
    rw [Operation.moves, Operation.first, run_cons hs, hp]
    exact run_posts (t := { t with posting := _ }) c t.delivery.nodup_registered h.queues rfl
  | poll r =>
    obtain ⟨hr, hn, rfl⟩ := of_poll hu
    by_cases hreg : t.delivery.isRegistered r = true
    · rw [Operation.moves, Operation.first, Operation.rest, if_pos hreg, run_poll hr hn hreg]
    · have hc := eq_false_of_ne_true hreg
      rw [Operation.moves, Operation.first, Operation.rest, if_neg hreg,
        run_poll_cancelled hr hn hc, Delivery.poll_of_not_registered hc]
      rfl
  | call r =>
    have hu : t.step calls (.call r) = some u := hu
    rw [Operation.moves, Operation.first, run_cons hu]
    rfl
  | settle r outcome =>
    obtain ⟨turn, hw, hm, rfl⟩ := of_settle hu
    cases outcome with
    | none =>
      obtain ⟨begun, rfl⟩ := Turn.of_mayEnd_none hm
      rw [Operation.moves, Operation.first, run, step, hw]
      rfl
    | some failure =>
      obtain ⟨left, rfl⟩ := Turn.of_mayEnd_some hm
      exact run_settle h.registry hw failure
  | note events =>
    obtain rfl := Option.some.inj hu
    rfl

theorem isLooking_insert {turn : Turn γ} (hq : ∀ q, t.isLooking q = false)
    (ht : turn.isLooking = false) (q : Registration) :
    (t.underway.insert r turn)[q]?.any Turn.isLooking = false := by
  by_cases h : r = q
  · subst h
    rw [Std.ExtTreeMap.getElem?_insert_self]
    exact ht
  · rw [getElem?_underway_insert _ _ h]
    exact hq q

theorem isLooking_erase (hq : ∀ q, t.isLooking q = false) (q : Registration) :
    (t.underway.erase r)[q]?.any Turn.isLooking = false := by
  by_cases h : r = q
  · subst h
    rw [Std.ExtTreeMap.getElem?_erase_self]
    rfl
  · rw [getElem?_underway_erase _ h]
    exact hq q

/-- an operation lets go of whatever it locks -/
theorem IsFree.perform (h : t.IsFree) (hu : t.perform calls o = some u) : u.IsFree := by
  cases o with
  | poll r =>
    obtain ⟨-, -, rfl⟩ := of_poll hu
    refine ⟨h.registry, fun q => ?_⟩
    show ((t.delivery.poll r).1.elim t.underway _)[q]?.any Turn.isLooking = false
    cases (t.delivery.poll r).1 with
    | none => exact h.queues q
    | some c => exact isLooking_insert h.queues rfl q
  | call r =>
    have hu : t.step calls (.call r) = some u := hu
    obtain ⟨begun, call, rest, -, rfl⟩ := of_call hu
    exact ⟨h.registry, isLooking_insert h.queues rfl⟩
  | settle r outcome =>
    obtain ⟨turn, -, -, rfl⟩ := of_settle hu
    exact ⟨h.registry, isLooking_erase h.queues⟩
  | register initial =>
    obtain rfl := Option.some.inj hu
    exact ⟨h.registry, h.queues⟩
  | remove r =>
    obtain rfl := Option.some.inj hu
    exact ⟨h.registry, h.queues⟩
  | enqueue c =>
    obtain rfl := Option.some.inj hu
    exact ⟨h.registry, h.queues⟩
  | note events =>
    obtain rfl := Option.some.inj hu
    exact ⟨h.registry, h.queues⟩

theorem isFree_start (policy : FailurePolicy) : (start policy : Traffic κ γ).IsFree where
  registry := rfl
  queues r := by
    rw [isLooking, start, Std.ExtTreeMap.getElem?_empty]
    rfl

end

/-! ## operations one after the other -/

/-- an operation, and whether the executor would take a task in -/
structure Occasion (κ : Type) where
  takes : Bool
  operation : Operation κ

def performAll (calls : κ → List γ) : Traffic κ γ → List (Occasion κ) → Option (Traffic κ γ)
  | t, [] => some t
  | t, o :: rest => ((t.under o.takes).perform calls o.operation).bind fun u => u.performAll calls rest

/-- what the operation hands in for everyone registered -/
def Operation.queued : Operation κ → List κ
  | .enqueue c => [c]
  | _ => []

def Occasion.moments (o : Occasion κ) (t : Traffic κ γ) : List (Moment κ) :=
  (o.operation.moves t).map (⟨o.takes, ·⟩)

section
variable {o : Operation κ}

theorem performAll_cons {o : Occasion κ} {rest : List (Occasion κ)}
    (h : t.performAll calls (o :: rest) = some u) :
    ∃ s, (t.under o.takes).perform calls o.operation = some s ∧ s.performAll calls rest = some u :=
  Option.bind_eq_some_iff.1 h

theorem queued_moves (o : Operation κ) (t : Traffic κ γ) :
    (o.moves t).flatMap Move.queued = o.queued := by
  have hrest : (o.rest t).flatMap Move.queued = [] := by
    refine List.flatMap_eq_nil_iff.2 fun m hm => ?_
    have hgoes := Operation.goesOn_of_mem_rest hm
    cases m with
    | enqueue c => cases hgoes
    | _ => rfl
  have hfirst : o.first.queued = o.queued := by
    cases o with
    | settle r outcome => cases outcome <;> rfl
    | _ => rfl
  rw [Operation.moves, List.flatMap_cons, hrest, hfirst, List.append_nil]

/-- what the executor says stays the same from one move to the next -/
theorem under_step {takes : Bool} {m : Move κ} (hu : (t.under takes).step calls m = some u) :
    u.under takes = u := by
  have ha : u.delivery.executor.accepts = fun _ => takes := by
    rw [accepts_step hu]
    exact funext fun r => accepts_under t takes r
  obtain ⟨⟨policy, issued, slots, ⟨accepts, tasks⟩, journal⟩, posting, underway, made⟩ := u
  obtain rfl : accepts = fun _ => takes := ha
  cases takes <;> rfl

theorem passAll_map (takes : Bool) (moves : List (Move κ)) (hne : moves ≠ []) :
    t.passAll calls (moves.map (⟨takes, ·⟩)) = (t.under takes).run calls moves := by
  induction moves generalizing t with
  | nil => exact absurd rfl hne
  | cons m rest ih =>
    show ((t.under takes).step calls m).bind _ = ((t.under takes).step calls m).bind _
    cases hu : (t.under takes).step calls m with
    | none => rfl
    | some u =>
      show u.passAll calls (rest.map _) = u.run calls rest
      cases rest with
      | nil => rfl
      | cons k rest => rw [ih (List.cons_ne_nil k rest), under_step hu]

theorem IsFree.under (h : t.IsFree) (takes : Bool) : (t.under takes).IsFree :=
  ⟨h.registry, h.queues⟩

theorem IsFree.passAll_moments (h : t.IsFree) {o : Occasion κ}
    (hu : (t.under o.takes).perform calls o.operation = some u) :
    t.passAll calls (o.moments (t.under o.takes)) = some u :=
  (passAll_map o.takes _ (List.cons_ne_nil _ _)).trans ((h.under o.takes).run_moves hu)

/-- the moments that the operations consist of -/
def momentsOf (calls : κ → List γ) : Traffic κ γ → List (Occasion κ) → List (Moment κ)
  | _, [] => []
  | t, o :: rest => o.moments (t.under o.takes) ++
      ((t.under o.takes).perform calls o.operation).elim [] fun u => momentsOf calls u rest

theorem momentsOf_cons {o : Occasion κ} (hu : (t.under o.takes).perform calls o.operation = some u)
    (rest : List (Occasion κ)) : t.momentsOf calls (o :: rest) =
      o.moments (t.under o.takes) ++ u.momentsOf calls rest := by
  rw [momentsOf, hu]
  rfl

/-- **Operations are moments**, one after the other -/
theorem IsFree.passAll_momentsOf (h : t.IsFree) {occasions : List (Occasion κ)}
    (hu : t.performAll calls occasions = some u) :
    t.passAll calls (t.momentsOf calls occasions) = some u ∧ u.IsFree := by
  induction occasions generalizing t with
  | nil =>
    obtain rfl := Option.some.inj hu
    exact ⟨rfl, h⟩
  | cons o rest ih =>
    obtain ⟨s, hs, hl⟩ := performAll_cons hu
    obtain ⟨hrest, hfree⟩ := ih ((h.under o.takes).perform hs) hl
    rw [momentsOf_cons hs, passAll_append, h.passAll_moments hs]
    exact ⟨hrest, hfree⟩

theorem queued_momentsOf {occasions : List (Occasion κ)}
    (hu : t.performAll calls occasions = some u) :
    (t.momentsOf calls occasions).flatMap (fun m => m.move.queued) =
      occasions.flatMap fun o => o.operation.queued := by
  induction occasions generalizing t with
  | nil => rfl
  | cons o rest ih =>
    obtain ⟨s, hs, hl⟩ := performAll_cons hu
    have hfirst : (o.moments (t.under o.takes)).flatMap (fun m => m.move.queued) =
        o.operation.queued := by
      rw [Occasion.moments, List.flatMap_map]
      exact queued_moves o.operation _
    rw [momentsOf_cons hs, List.flatMap_append, hfirst, ih hl, List.flatMap_cons]

end

end Traffic

/-! ## a listener among operations -/

open Traffic in
/-- a listener is registered, and nothing but operations of the delivery is performed -/
structure Visit (policy : FailurePolicy) (κ : Type) where
  before : List (Occasion κ)
  opening : Traffic κ κ
  takes : Bool
  initial : Option κ
  later : List (Occasion κ)
  now : Traffic κ κ
  reached : (start policy).performAll single before = some opening
  performed : opening.performAll single (⟨takes, .register initial⟩ :: later) = some now

namespace Visit

open Traffic

variable {κ : Type} {policy : FailurePolicy} (v : Visit policy κ)

def registration : Registration := ⟨v.opening.delivery.issued + 1⟩

/-- made from its operations, if they can be performed -/
def run (policy : FailurePolicy) (before : List (Occasion κ)) (takes : Bool) (initial : Option κ)
    (later : List (Occasion κ)) (h : ((start policy).performAll single before).isSome)
    (hl : ((((start policy).performAll single before).get h).performAll single
      (⟨takes, .register initial⟩ :: later)).isSome) : Visit policy κ :=
  ⟨before, _, takes, initial, later, _, (Option.some_get h).symm, (Option.some_get hl).symm⟩

/-- the registration, and what comes after it -/
def occasions : List (Occasion κ) := ⟨v.takes, .register v.initial⟩ :: v.later

/-- the first callback, and those that are enqueued since then -/
def promised : List κ := v.initial.toList ++ v.later.flatMap fun o => o.operation.queued

/-- the traffic when the listener has just been registered -/
def opened : Traffic κ κ :=
  { v.opening.under v.takes with
    delivery := ((v.opening.under v.takes).delivery.register v.initial).2 }

theorem performed_later : v.opened.performAll single v.later = some v.now := v.performed

theorem isFree_opening : v.opening.IsFree :=
  ((isFree_start policy).passAll_momentsOf v.reached).2

/-- the same listener among the moves of these operations -/
def attendance : Attendance policy κ where
  before := (start policy).momentsOf single v.before
  opening := v.opening
  takes := v.takes
  initial := v.initial
  later := v.opened.momentsOf single v.later
  now := v.now
  reached := ((isFree_start policy).passAll_momentsOf v.reached).1
  passed := (v.isFree_opening.passAll_momentsOf v.performed).1

theorem promised_attendance : v.attendance.promised = v.promised := by
  show v.initial.toList ++ (v.opened.momentsOf single v.later).flatMap (fun m => m.move.queued) = _
  rw [queued_momentsOf v.performed_later]
  rfl

end Visit

end OverlayWatch
