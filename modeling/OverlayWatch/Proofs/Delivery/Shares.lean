import OverlayWatch.Proofs.Delivery.Registry

/-!
# Side by side

What a move does to one registration depends on its share of the delivery alone: its slot, what is to be
queued for it, what its drain task has in hand and what it has received.  So two deliveries in which the
same goes on but for the moves made for one registration stay alike for everyone else.

* `Delivery.pop_congr` and the like   what an operation does to a slot depends on the slot alone;
* `share_step_congr`           any move does the same to equal shares;
* `Traffic.AlikeBut`           two deliveries that are alike but for one registration;
* `AlikeBut.passAll`           what they stay in runs that are alike but for the moves made for it;
* `AlikeBut.exists_step`       what one of them can do for the others, the other can do as well.
-/

namespace OverlayWatch

namespace Delivery

variable {κ : Type} {d e : Delivery κ} {r q : Registration}

theorem slots_remove_self (hr : d.isRegistered r = true) : (d.remove r).2.slots[r]? =
    d.slots[r]?.map fun slot => { slot with cancelled := true } := by
  rw [remove, if_pos hr]
  show (d.cancel r).slots[r]? = _
  rw [slots_cancel, if_pos rfl]

theorem slots_cancel_self : (d.cancel r).slots[r]? =
    d.slots[r]?.map fun slot => { slot with cancelled := true } := by
  rw [slots_cancel, if_pos rfl]

/-! ## what an operation does depends on the slot alone -/

theorem remove_congr (h : d.slots[r]? = e.slots[r]?) :
    (d.remove r).2.slots[r]? = (e.remove r).2.slots[r]? := by
  have hreg : d.isRegistered r = e.isRegistered r := by rw [isRegistered, isRegistered, h]
  unfold remove
  rw [hreg]
  split
  · show (d.cancel r).slots[r]? = (e.cancel r).slots[r]?
    rw [slots_cancel, slots_cancel, h]
  · exact h

theorem cancel_congr (h : d.slots[r]? = e.slots[r]?) :
    (d.cancel r).slots[r]? = (e.cancel r).slots[r]? := by
  rw [slots_cancel_self, slots_cancel_self, h]

theorem look_congr (h : d.slots[r]? = e.slots[r]?) :
    (d.look r).2.slots[r]? = (e.look r).2.slots[r]? := by
  unfold look
  rw [h]
  split
  · exact h
  · split
    · rw [slots_endTask, slots_endTask, if_pos rfl, if_pos rfl]
    · exact h

theorem pop_congr (h : d.slots[r]? = e.slots[r]?) :
    (d.pop r).1 = (e.pop r).1 ∧ (d.pop r).2.slots[r]? = (e.pop r).2.slots[r]? := by
  unfold pop
  rw [h]
  split
  · exact ⟨rfl, h⟩
  · split
    · exact ⟨rfl, by rw [slots_endTask, slots_endTask, if_pos rfl, if_pos rfl]⟩
    · exact ⟨rfl, by rw [getElem?_slots_setSlot_self, getElem?_slots_setSlot_self]⟩

theorem register_congr (hi : d.issued = e.issued) (h : d.slots[q]? = e.slots[q]?)
    (ha : d.executor.accepts q = e.executor.accepts q) (initial : Option κ) :
    (d.register initial).2.slots[q]? = (e.register initial).2.slots[q]? := by
  by_cases hq : q = ⟨d.issued + 1⟩
  · subst hq
    cases initial with
    | none =>
      show (d.setSlot _ .fresh).slots[_]? = (e.setSlot ⟨e.issued + 1⟩ .fresh).slots[_]?
      rw [← hi, getElem?_slots_setSlot_self, getElem?_slots_setSlot_self]
    | some c =>
      have he := slots_register_self e c
      rw [← hi] at he
      rw [slots_register_self, he, ha]
  · rw [slots_register_of_ne d hq, slots_register_of_ne e (hi ▸ hq), h]

end Delivery

namespace Traffic

variable {κ γ : Type}

/-! ## the same move, the same share -/

section
variable {calls : κ → List γ} {t u t' u' : Traffic κ γ} {q : Registration} {m : Move κ}

theorem getElem?_insert_alike {β : Type} (w v : Std.ExtTreeMap Registration β) (r : Registration)
    (b : β) : (w.insert r b)[r]? = (v.insert r b)[r]? := by
  rw [Std.ExtTreeMap.getElem?_insert_self, Std.ExtTreeMap.getElem?_insert_self]

theorem getElem?_erase_alike {β : Type} (w v : Std.ExtTreeMap Registration β) (r : Registration) :
    (w.erase r)[r]? = (v.erase r)[r]? := by
  rw [Std.ExtTreeMap.getElem?_erase_self, Std.ExtTreeMap.getElem?_erase_self]

/-- a move made for the registration itself -/
theorem share_step_congr_of_concerns (hm : m.concerns q = true) (h : t.share q = u.share q)
    (hp : t.delivery.policy = u.delivery.policy)
    (ha : t.delivery.executor.accepts q = u.delivery.executor.accepts q)
    (ht : t.step calls m = some t') (hu : u.step calls m = some u') : t'.share q = u'.share q := by
  obtain ⟨hslot, hposted, hturn, hreceived⟩ := share_eq_iff.1 h
  cases m with
  | remove p =>
    obtain rfl : p = q := of_decide_eq_true hm
    obtain ⟨-, rfl⟩ := of_remove ht
    obtain ⟨-, rfl⟩ := of_remove hu
    exact share_eq_iff.2 ⟨Delivery.remove_congr hslot, hposted, hturn, hreceived⟩
  | post p =>
    obtain rfl : p = q := of_decide_eq_true hm
    obtain ⟨c, hc, -, rfl⟩ := of_post ht
    obtain ⟨b, hb, -, rfl⟩ := of_post hu
    obtain rfl : c = b := Option.some.inj (hc.symm.trans (hposted.trans hb))
    refine share_eq_iff.2 ⟨?_, getElem?_erase_alike _ _ p, hturn, hreceived⟩
    show (t.delivery.push c p).slots[p]? = (u.delivery.push c p).slots[p]?
    rw [Delivery.slots_push, Delivery.slots_push, if_pos rfl, if_pos rfl, hslot, ha]
  | look p =>
    obtain rfl : p = q := of_decide_eq_true hm
    obtain ⟨-, -, rfl⟩ := of_look ht
    obtain ⟨-, -, rfl⟩ := of_look hu
    refine share_eq_iff.2 ⟨Delivery.look_congr hslot, hposted, ?_, hreceived⟩
    have hreg : t.delivery.isRegistered p = u.delivery.isRegistered p := by
      rw [Delivery.isRegistered, Delivery.isRegistered, hslot]
    show (if t.delivery.isRegistered p then t.underway.insert p .looking else t.underway)[p]? =
      (if u.delivery.isRegistered p then u.underway.insert p .looking else u.underway)[p]?
    rw [hreg]
    split
    · exact getElem?_insert_alike _ _ p _
    · exact hturn
  | take p =>
    obtain rfl : p = q := of_decide_eq_true hm
    obtain ⟨hpop, hnext⟩ := Delivery.pop_congr hslot
    obtain ⟨-, rfl⟩ := of_take ht
    obtain ⟨-, rfl⟩ := of_take hu
    refine share_eq_iff.2 ⟨hnext, hposted, ?_, hreceived⟩
    rw [hpop]
    cases (u.delivery.pop p).1 with
    | none => exact getElem?_erase_alike _ _ p
    | some c => exact getElem?_insert_alike _ _ p _
  | call p =>
    obtain rfl : p = q := of_decide_eq_true hm
    obtain ⟨_, call, rest, hw, rfl⟩ := of_call ht
    obtain ⟨_, _, _, ho, rfl⟩ := of_call hu
    obtain ⟨rfl, hleft⟩ := Turn.inHand.inj (Option.some.inj (hw.symm.trans (hturn.trans ho)))
    obtain ⟨rfl, rfl⟩ := List.cons.inj hleft
    refine share_eq_iff.2 ⟨hslot, hposted, getElem?_insert_alike _ _ p _, ?_⟩
    exact (received_append t p p call).trans
      ((congrArg (· ++ _) hreceived).trans (received_append u p p call).symm)
  | finish p =>
    obtain rfl : p = q := of_decide_eq_true hm
    obtain ⟨_, -, rfl⟩ := of_finish ht
    obtain ⟨_, -, rfl⟩ := of_finish hu
    exact share_eq_iff.2 ⟨hslot, hposted, getElem?_erase_alike _ _ p, hreceived⟩
  | fail p failure =>
    obtain rfl : p = q := of_decide_eq_true hm
    obtain ⟨_, -, rfl⟩ := of_fail ht
    obtain ⟨_, -, rfl⟩ := of_fail hu
    refine share_eq_iff.2 ⟨hslot, hposted, ?_, hreceived⟩
    show (if t.delivery.policy = .cancel then t.underway.insert p .failed
        else t.underway.erase p)[p]? =
      (if u.delivery.policy = .cancel then u.underway.insert p .failed else u.underway.erase p)[p]?
    rw [hp]
    split
    · exact getElem?_insert_alike _ _ p _
    · exact getElem?_erase_alike _ _ p
  | cancel p =>
    obtain rfl : p = q := of_decide_eq_true hm
    obtain ⟨-, -, rfl⟩ := of_cancel ht
    obtain ⟨-, -, rfl⟩ := of_cancel hu
    exact share_eq_iff.2 ⟨Delivery.cancel_congr hslot, hposted, getElem?_erase_alike _ _ p, hreceived⟩
  | register initial => cases hm
  | enqueue c => cases hm
  | note events => cases hm

theorem share_step_congr (h : t.share q = u.share q) (hp : t.delivery.policy = u.delivery.policy)
    (hi : t.delivery.issued = u.delivery.issued)
    (ha : t.delivery.executor.accepts q = u.delivery.executor.accepts q)
    (ht : t.step calls m = some t') (hu : u.step calls m = some u') : t'.share q = u'.share q := by
  by_cases hm : ∃ p, m.concerns p = true
  · obtain ⟨p, hm⟩ := hm
    by_cases e : p = q
    · exact share_step_congr_of_concerns (e ▸ hm) h hp ha ht hu
    · rw [share_step_of_concerns hm e ht, share_step_of_concerns hm e hu, h]
  obtain ⟨hslot, hposted, hturn, hreceived⟩ := share_eq_iff.1 h
  cases m with
  | register initial =>
    obtain ⟨-, rfl⟩ := of_register ht
    obtain ⟨-, rfl⟩ := of_register hu
    exact share_eq_iff.2 ⟨Delivery.register_congr hi hslot ha initial, hposted, hturn, hreceived⟩
  | enqueue c =>
    obtain ⟨-, rfl⟩ := of_enqueue ht
    obtain ⟨-, rfl⟩ := of_enqueue hu
    have hreg : q ∈ t.delivery.registered ↔ q ∈ u.delivery.registered := by
      rw [Delivery.mem_registered, Delivery.mem_registered, Delivery.isRegistered,
        Delivery.isRegistered, hslot]
    refine share_eq_iff.2 ⟨hslot, ?_, hturn, hreceived⟩
    show (addressed c t.delivery.registered)[q]? = (addressed c u.delivery.registered)[q]?
    simp only [getElem?_addressed, hreg]
  | note events =>
    obtain rfl := of_note ht
    obtain rfl := of_note hu
    exact share_eq_iff.2 ⟨hslot, hposted, hturn, hreceived⟩
  | _ => exact absurd ⟨_, decide_eq_true rfl⟩ hm

end

/-! ## two deliveries -/

structure AlikeBut (r : Registration) (t u : Traffic κ γ) : Prop where
  policy : t.delivery.policy = u.delivery.policy
  issued : t.delivery.issued = u.delivery.issued
  shares : ∀ q, r ≠ q → t.share q = u.share q

/-- what goes on apart from one registration -/
def apart (r : Registration) (moments : List (Moment κ)) : List (Moment κ) :=
  moments.filter fun m => !m.move.concerns r

namespace AlikeBut

variable {calls : κ → List γ} {t u t' u' : Traffic κ γ} {r : Registration} {m : Moment κ}

theorem refl (r : Registration) (t : Traffic κ γ) : AlikeBut r t t := ⟨rfl, rfl, fun _ _ => rfl⟩

theorem symm (h : AlikeBut r t u) : AlikeBut r u t :=
  ⟨h.policy.symm, h.issued.symm, fun q hq => (h.shares q hq).symm⟩

theorem trans {s : Traffic κ γ} (h : AlikeBut r t s) (k : AlikeBut r s u) : AlikeBut r t u :=
  ⟨h.policy.trans k.policy, h.issued.trans k.issued,
    fun q hq => (h.shares q hq).trans (k.shares q hq)⟩

theorem slot_eq {q : Registration} (h : AlikeBut r t u) (hq : r ≠ q) :
    t.delivery.slots[q]? = u.delivery.slots[q]? :=
  (share_eq_iff.1 (h.shares q hq)).1

theorem turn_eq {q : Registration} (h : AlikeBut r t u) (hq : r ≠ q) :
    t.underway[q]? = u.underway[q]? :=
  (share_eq_iff.1 (h.shares q hq)).2.2.1

/-- the others do not notice a move that is made for the registration -/
theorem of_concerns (hm : m.move.concerns r = true) (ht : t.pass calls m = some t') :
    AlikeBut r t' t := by
  have hg : ((t.under m.takes).gives m.move).length = 0 := by
    cases hmove : m.move with
    | register initial =>
      rw [hmove] at hm
      cases hm
    | _ => rfl
  refine ⟨policy_pass ht, ?_, fun q hq => share_step_of_concerns (t := t.under m.takes) hm hq ht⟩
  rw [issued_step_eq (t := t.under m.takes) ht, hg]
  rfl

theorem pass (h : AlikeBut r t u) (ht : t.pass calls m = some t') (hu : u.pass calls m = some u') :
    AlikeBut r t' u' := by
  have hg : ((t.under m.takes).gives m.move).length = ((u.under m.takes).gives m.move).length := by
    cases m.move <;> rfl
  have hissued : (t.under m.takes).delivery.issued = (u.under m.takes).delivery.issued := h.issued
  refine ⟨?_, ?_, fun q hq => ?_⟩
  · rw [policy_pass ht, policy_pass hu, h.policy]
  · rw [issued_step_eq (t := t.under m.takes) ht, issued_step_eq (t := u.under m.takes) hu, hg, hissued]
  · refine share_step_congr (t := t.under m.takes) (u := u.under m.takes) (h.shares q hq) h.policy
      hissued ?_ ht hu
    rw [accepts_under, accepts_under]

theorem of_all_concern {moments : List (Moment κ)} (hm : ∀ m ∈ moments, m.move.concerns r = true)
    (ht : t.passAll calls moments = some t') : AlikeBut r t' t := by
  induction moments generalizing t with
  | nil =>
    obtain rfl := Option.some.inj ht
    exact refl r t
  | cons m rest ih =>
    obtain ⟨s, hs, hr⟩ := passAll_cons ht
    obtain ⟨hm, hrest⟩ := List.forall_mem_cons.1 hm
    exact (ih hrest hr).trans (of_concerns hm hs)

/-- whether or not the same moves are made for the registration, and wherever in between -/
theorem passAll {l k : List (Moment κ)} (h : AlikeBut r t u) (hlk : apart r l = apart r k)
    (ht : t.passAll calls l = some t') (hu : u.passAll calls k = some u') : AlikeBut r t' u' := by
  induction l generalizing t u k with
  | nil =>
    obtain rfl := Option.some.inj ht
    have hk : ∀ m ∈ k, m.move.concerns r = true := by
      simpa [apart] using hlk.symm
    exact h.trans (of_all_concern hk hu).symm
  | cons m l ih =>
    obtain ⟨s, hs, hl⟩ := passAll_cons ht
    by_cases hm : m.move.concerns r = true
    · have hrest : apart r l = apart r k := by
        rw [← hlk]
        simp [apart, hm]
      exact ih ((of_concerns hm hs).trans h) hrest hl hu
    · have hk : apart r k = m :: apart r l := by
        rw [← hlk]
        simp [apart, hm]
      obtain ⟨first, rest, rfl, hfirst, -, hrest⟩ := List.filter_eq_cons_iff.1 hk
      have hfirst : ∀ n ∈ first, n.move.concerns r = true := by
        simpa using hfirst
      rw [passAll_append] at hu
      obtain ⟨v, hv, hrun⟩ := Option.bind_eq_some_iff.1 hu
      obtain ⟨w, hw, hk⟩ := passAll_cons hrun
      exact ih ((h.trans (of_all_concern hfirst hv).symm).pass hs hw) hrest.symm hl hk

/-- where one of them can move, the other can -/
theorem exists_step {t u t' : Traffic κ γ} {m : Move κ} (h : AlikeBut r t u) (hst : t.Sound)
    (hsu : u.Sound) (hp : t.posting[r]? = u.posting[r]?) (hm : m.concerns r = false)
    (ht : t.step calls m = some t') : ∃ u', u.step calls m = some u' := by
  have hposting : t.posting = u.posting := by
    refine Std.ExtTreeMap.ext_getElem? fun q => ?_
    by_cases e : r = q
    · exact e ▸ hp
    · exact (share_eq_iff.1 (h.shares q e)).2.1
  cases m with
  | register initial =>
    obtain ⟨hidle, -⟩ := of_register ht
    exact ⟨_, if_pos (hposting ▸ hidle)⟩
  | remove q =>
    obtain ⟨hidle, -⟩ := of_remove ht
    exact ⟨_, if_pos (hposting ▸ hidle)⟩
  | enqueue c =>
    obtain ⟨hidle, -⟩ := of_enqueue ht
    exact ⟨_, if_pos (hposting ▸ hidle)⟩
  | post q =>
    have hturn := h.turn_eq (Ne.symm (of_decide_eq_false hm))
    obtain ⟨c, hc, hl, -⟩ := of_post ht
    rw [isLooking, hturn] at hl
    rw [hposting] at hc
    rw [step, hc, isLooking, hl]
    exact ⟨_, rfl⟩
  | look q =>
    have hturn := h.turn_eq (Ne.symm (of_decide_eq_false hm))
    have hslot := h.slot_eq (Ne.symm (of_decide_eq_false hm))
    obtain ⟨hq, hidle, -⟩ := of_look ht
    rw [hst.delivery.mem_tasks_iff, hslot, ← hsu.delivery.mem_tasks_iff] at hq
    exact ⟨_, if_pos ⟨hq, hturn.symm.trans hidle⟩⟩
  | take q =>
    have hturn := h.turn_eq (Ne.symm (of_decide_eq_false hm))
    obtain ⟨hw, -⟩ := of_take ht
    rw [step, ← hturn, hw]
    exact ⟨_, rfl⟩
  | call q =>
    have hturn := h.turn_eq (Ne.symm (of_decide_eq_false hm))
    obtain ⟨begun, call, rest, hw, -⟩ := of_call ht
    rw [step, ← hturn, hw]
    exact ⟨_, rfl⟩
  | finish q =>
    have hturn := h.turn_eq (Ne.symm (of_decide_eq_false hm))
    obtain ⟨begun, hw, -⟩ := of_finish ht
    rw [step, ← hturn, hw]
    exact ⟨_, rfl⟩
  | fail q failure =>
    have hturn := h.turn_eq (Ne.symm (of_decide_eq_false hm))
    obtain ⟨left, hw, -⟩ := of_fail ht
    rw [step, ← hturn, hw]
    exact ⟨_, rfl⟩
  | cancel q =>
    have hturn := h.turn_eq (Ne.symm (of_decide_eq_false hm))
    obtain ⟨hidle, hw, -⟩ := of_cancel ht
    rw [step, ← hturn, hw, ← hposting, hidle]
    exact ⟨_, rfl⟩
  | note events => exact ⟨_, rfl⟩

theorem under (h : AlikeBut r t u) (takes : Bool) : AlikeBut r (t.under takes) (u.under takes) :=
  ⟨h.policy, h.issued, h.shares⟩

end AlikeBut

end Traffic

end OverlayWatch
