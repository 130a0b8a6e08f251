import Mathlib.Data.List.Pairwise
import Mathlib.Data.List.Perm.Lattice
import Mathlib.Data.List.Nodup
import RaizStack.ProverBridge
import RaizStack.Text

/-!
# What a call of the bridge returns

The invariant of the bridge, in four parts. Numbers are never used twice
(`Numbering`); the JS in the page and on its way there belongs to the
calls that have its number (`Dispatch`); while a call is between `buildJs`
and its `finally` block the slot, the upstream and the pages of its number
are its own (`InSection`); and every completion under way or done comes from
an invocation of its number (`Answers`). The last needs the others: a
callback finds the number it carries in `pending` only while that call
holds the mutex, so what the invocation has been served by then came from
the call's own source.
-/

namespace RaizStack

variable {J : Type}

/-! ## The program counter -/

namespace ProverPc

/-- The number the call has. -/
def id? : ProverPc J → Option Nat
  | .locked => none
  | .numbered id => some id
  | .assigned id => some id
  | .built id => some id
  | .awaiting id => some id
  | .leaving id _ => some id
  | .cleared id _ => id

/-- Its number, once `pending` was set and before it is cleared. -/
def pendingId? : ProverPc J → Option Nat
  | .assigned id => some id
  | .built id => some id
  | .awaiting id => some id
  | .leaving id _ => some id
  | _ => none

/-- Its number, from `buildJs` to the end of `await`. -/
def openId? : ProverPc J → Option Nat
  | .built id => some id
  | .awaiting id => some id
  | .leaving id _ => some id
  | _ => none

/-- Its number, once the JS was posted. -/
def postedId? : ProverPc J → Option Nat
  | .awaiting id => some id
  | .leaving id _ => some id
  | .cleared id _ => id
  | _ => none

/-- What it ends with, once that is settled. -/
def ended? : ProverPc J → Option (CallEnd J)
  | .leaving _ e => some e
  | .cleared _ e => some e
  | _ => none

theorem id?_of_pendingId? {pc : ProverPc J} {n : Nat} (h : pc.pendingId? = some n) :
    pc.id? = some n := by
  cases pc <;> first | exact h | cases h

theorem id?_of_postedId? {pc : ProverPc J} {n : Nat} (h : pc.postedId? = some n) :
    pc.id? = some n := by
  cases pc <;> first | exact h | cases h

theorem id?_of_openId? {pc : ProverPc J} {n : Nat} (h : pc.openId? = some n) :
    pc.id? = some n := by
  cases pc <;> first | exact h | cases h

/-- A pending call is past `buildJs`, or it has no JS yet. -/
theorem openId?_or_unposted {pc : ProverPc J} {n : Nat} (h : pc.pendingId? = some n) :
    pc.openId? = some n ∨ pc.postedId? = none := by
  cases pc with
  | assigned id => exact .inr rfl
  | built id => exact .inl h
  | awaiting id => exact .inl h
  | leaving id e => exact .inl h
  | _ => cases h

end ProverPc

/-! ## The upstream of a call -/

/-- `eventsUpstream` is what this call set it to, if it sets it. -/
def ProverCall.Keeps (eventsUpstream : Option String) : ProverCall → Prop
  | .goalTotal _ eventsSourceUrl _ => eventsUpstream = eventsSourceUrl
  | _ => True

theorem ProverCall.keeps_buildJs (c : ProverCall) (eventsUpstream : Option String) :
    c.Keeps (c.buildJs eventsUpstream) := by
  cases c with
  | goalTotal inputsJson eventsSourceUrl timeoutMs => rfl
  | _ => trivial

/-- What the proxy fetches for a request is below its upstream. -/
theorem proxyEvents_below (upstream : String) (r : ProxyRequest) :
    ∃ target, proxyEvents (some upstream) r = .fetched target ∧ r.Below upstream target := by
  refine ⟨_, rfl, trimEndSlash upstream.toList,
    (upstream.toList.rtakeWhile (· == '/')).length, ?_, ?_, ?_⟩
  · have hslashes : upstream.toList.rtakeWhile (· == '/')
        = List.replicate (upstream.toList.rtakeWhile (· == '/')).length '/' :=
      List.eq_replicate_iff.mpr ⟨rfl, fun c hc => by
        have hslash : (c == '/') = true := List.mem_rtakeWhile_imp (p := (· == '/')) hc
        exact beq_iff_eq.mp hslash⟩
    rw [← hslashes, trimEndSlash, List.rdropWhile_append_rtakeWhile]
  · intro hlast
    have hne : trimEndSlash upstream.toList ≠ [] := by
      rintro hnil
      rw [hnil] at hlast
      cases hlast
    have hslash := List.rdropWhile_last_not _ _ hne
    rw [List.getLast?_eq_getLast_of_ne_nil hne] at hlast
    exact hslash (beq_iff_eq.mpr (Option.some.inj hlast))
  · cases r.encodedQuery with
    | some query => simp
    | none => simp

theorem ProverCall.Keeps.servedBy {c : ProverCall} {upstream : Option String}
    (h : c.Keeps upstream) (r : ProxyRequest) :
    c.ServedBy { request := r, reply := proxyEvents upstream r } := by
  cases c with
  | goalTotal inputsJson eventsSourceUrl timeoutMs =>
      obtain rfl : upstream = eventsSourceUrl := h
      cases upstream with
      | some url => exact proxyEvents_below url r
      | none => rfl
  | _ => trivial

namespace ProverBridge

variable {parse : String → Except String J} {s t : ProverBridge J}

/-! ## The invariant -/

variable (s) in
/-- The numbers of the calls that have one. -/
def ids : List Nat :=
  (s.active.bind fun a => a.pc.id?).toList ++ s.returned.filterMap ReturnedCall.id

structure Numbering (s : ProverBridge J) : Prop where
  nodup : s.ids.Nodup
  le : ∀ n ∈ s.ids, n ≤ s.requestSeq

variable (s) in
/-- The JS on the main looper and in the page. -/
def dispatched : List (Nat × ProverCall) :=
  s.posted ++ s.invocations.map fun inv => (inv.id, inv.call)

/-- The call of this number has posted its JS. -/
def Posted (s : ProverBridge J) (n : Nat) (c : ProverCall) : Prop :=
  (∃ a, s.active = some a ∧ a.call = c ∧ a.pc.postedId? = some n) ∨
    ∃ r ∈ s.returned, r.call = c ∧ r.id = some n

structure Dispatch (s : ProverBridge J) : Prop where
  posted : ∀ d ∈ s.dispatched, s.Posted d.1 d.2
  nodup : (s.dispatched.map Prod.fst).Nodup
  fetched : ∀ f ∈ s.fetches, f.id ∈ s.dispatched.map Prod.fst

structure InSection (s : ProverBridge J) : Prop where
  pending : ∀ p, s.pending = some p →
    ∃ a, s.active = some a ∧ a.pc.pendingId? = some p.id ∧ p.kind = a.call.kind
  upstream : ∀ a n, s.active = some a → a.pc.openId? = some n → a.call.Keeps s.eventsUpstream
  pages : ∀ a n, s.active = some a → a.pc.openId? = some n → ∀ inv ∈ s.invocations, inv.id = n →
    ∀ page ∈ inv.pages, a.call.ServedBy page
  fetches : ∀ a n, s.active = some a → a.pc.openId? = some n → ∀ f ∈ s.fetches, f.id = n →
    a.call.Keeps f.upstream

/-- If `e` is a result or a JS error, an invocation of this number produced
it, and the pages it had been served by then are those of its call. -/
def Answered (parse : String → Except String J) (invocations : List JsInvocation) (n : Nat)
    (e : CallEnd J) : Prop :=
  e.fromJs = true → ∃ inv ∈ invocations, inv.id = n ∧ ∃ x ∈ inv.products,
    CallEnd.ofAnswer parse inv.call.kind x.answer = e ∧ ∀ page ∈ x.pages, inv.call.ServedBy page

structure Answers (parse : String → Except String J) (s : ProverBridge J) : Prop where
  completions : ∀ x ∈ s.completions, Answered parse s.invocations x.pending.id x.ended
  deferreds : ∀ n e, s.deferreds n = some e → Answered parse s.invocations n e
  ended : ∀ a e, s.active = some a → a.pc.ended? = some e → e.fromJs = true →
    ∃ n, a.pc.id? = some n ∧ Answered parse s.invocations n e
  returned : ∀ r ∈ s.returned, r.ended.fromJs = true →
    ∃ n, r.id = some n ∧ Answered parse s.invocations n r.ended

structure BridgeInv (parse : String → Except String J) (s : ProverBridge J) : Prop where
  numbering : s.Numbering
  dispatch : s.Dispatch
  inSection : s.InSection
  answers : s.Answers parse

/-! ## What the invariant says of numbers -/

variable {c : ProverCall} {pc : ProverPc J} {n : Nat}

theorem ids_of_active (hactive : s.active = some ⟨c, pc⟩) :
    s.ids = pc.id?.toList ++ s.returned.filterMap ReturnedCall.id := by
  rw [ids, hactive]
  rfl

/-- No call that is over has the number of the one in the mutex. -/
theorem Numbering.not_returned (h : s.Numbering) (hactive : s.active = some ⟨c, pc⟩)
    (hid : pc.id? = some n) {r : ReturnedCall J} (hr : r ∈ s.returned) : r.id ≠ some n := by
  intro hrid
  have hnodup := h.nodup
  rw [ids_of_active hactive, hid] at hnodup
  exact (List.nodup_append.mp hnodup).2.2 n (List.mem_singleton_self n) n
    (List.mem_filterMap.mpr ⟨r, hr, hrid⟩) rfl

/-- JS under the number of the call in the mutex is its JS. -/
theorem Dispatch.call_eq (h : s.Dispatch) (hnum : s.Numbering) (hactive : s.active = some ⟨c, pc⟩)
    (hid : pc.id? = some n) {inv : JsInvocation} (hinv : inv ∈ s.invocations) (hn : inv.id = n) :
    inv.call = c := by
  have hd : (inv.id, inv.call) ∈ s.dispatched :=
    List.mem_append_right _ (List.mem_map_of_mem hinv)
  rcases h.posted _ hd with ⟨a, ha, hcall, -⟩ | ⟨r, hr, -, hrid⟩
  · cases hactive.symm.trans ha
    exact hcall.symm
  · rw [hn] at hrid
    exact absurd hrid (hnum.not_returned hactive hid hr)

/-- Before its JS is posted there is none under its number. -/
theorem Dispatch.fresh (h : s.Dispatch) (hnum : s.Numbering) (hactive : s.active = some ⟨c, pc⟩)
    (hid : pc.id? = some n) (hposted : pc.postedId? = none) : n ∉ s.dispatched.map Prod.fst := by
  intro hn
  obtain ⟨d, hd, rfl⟩ := List.mem_map.mp hn
  rcases h.posted d hd with ⟨a, ha, -, hpost⟩ | ⟨r, hr, -, hrid⟩
  · cases hactive.symm.trans ha
    cases hposted.symm.trans hpost
  · exact hnum.not_returned hactive hid hr hrid

theorem mem_dispatched {inv : JsInvocation} (hinv : inv ∈ s.invocations) :
    inv.id ∈ s.dispatched.map Prod.fst :=
  List.mem_map_of_mem (List.mem_append_right s.posted (List.mem_map_of_mem hinv))

/-! ## Answers survive -/

/-- Every invocation goes on, with what it has produced. -/
def Grows (l l' : List JsInvocation) : Prop :=
  ∀ inv ∈ l, ∃ inv' ∈ l', inv'.id = inv.id ∧ inv'.call = inv.call ∧ inv.products ⊆ inv'.products

theorem Answered.grow {l l' : List JsInvocation} {e : CallEnd J} (h : Answered parse l n e)
    (hgrow : Grows l l') : Answered parse l' n e := by
  intro hjs
  obtain ⟨inv, hinv, hid, x, hx, hend, hpages⟩ := h hjs
  obtain ⟨inv', hinv', hid', hcall, hproducts⟩ := hgrow inv hinv
  refine ⟨inv', hinv', hid'.trans hid, x, hproducts hx, ?_, ?_⟩
  · rw [hcall, hend]
  · rw [hcall]
    exact hpages

theorem Answered.of_not_fromJs {l : List JsInvocation} {e : CallEnd J} (h : e.fromJs = false) :
    Answered parse l n e := by
  intro hjs
  rw [h] at hjs
  cases hjs

theorem Answers.grow (h : s.Answers parse) {invocations : List JsInvocation}
    (hgrow : Grows s.invocations invocations) :
    Answers parse { s with invocations := invocations } where
  completions x hx := (h.completions x hx).grow hgrow
  deferreds n e he := (h.deferreds n e he).grow hgrow
  ended a e ha he hjs := by
    obtain ⟨n, hid, hanswered⟩ := h.ended a e ha he hjs
    exact ⟨n, hid, hanswered.grow hgrow⟩
  returned r hr hjs := by
    obtain ⟨n, hid, hanswered⟩ := h.returned r hr hjs
    exact ⟨n, hid, hanswered.grow hgrow⟩

theorem grows_append (l l' : List JsInvocation) : Grows l (l ++ l') :=
  fun inv hinv => ⟨inv, List.mem_append_left l' hinv, rfl, rfl, List.Subset.refl _⟩

variable (s) in
/-- A change that keeps number and call. -/
theorem map_updateInvocation (id : Nat) {f : JsInvocation → JsInvocation}
    (hf : ∀ inv, (f inv).id = inv.id ∧ (f inv).call = inv.call) :
    (s.updateInvocation id f).map (fun inv => (inv.id, inv.call))
      = s.invocations.map fun inv => (inv.id, inv.call) := by
  rw [updateInvocation, List.map_map]
  refine List.map_congr_left fun inv _ => ?_
  simp only [Function.comp_apply]
  split
  · rw [(hf inv).1, (hf inv).2]
  · rfl

variable (s) in
theorem grows_updateInvocation (id : Nat) {f : JsInvocation → JsInvocation}
    (hf : ∀ inv, (f inv).id = inv.id ∧ (f inv).call = inv.call)
    (hproducts : ∀ inv, inv.products ⊆ (f inv).products) :
    Grows s.invocations (s.updateInvocation id f) := by
  intro inv hinv
  refine ⟨if inv.id = id then f inv else inv, List.mem_map_of_mem hinv, ?_⟩
  split
  · exact ⟨(hf inv).1, (hf inv).2, hproducts inv⟩
  · exact ⟨rfl, rfl, List.Subset.refl _⟩

theorem mem_updateInvocation {id : Nat} {f : JsInvocation → JsInvocation} {inv : JsInvocation}
    (h : inv ∈ s.updateInvocation id f) :
    ∃ inv₀ ∈ s.invocations, (inv₀.id = id ∧ inv = f inv₀) ∨ (inv₀.id ≠ id ∧ inv = inv₀) := by
  obtain ⟨inv₀, hinv₀, rfl⟩ := List.mem_map.mp h
  refine ⟨inv₀, hinv₀, ?_⟩
  by_cases hid : inv₀.id = id
  · exact .inl ⟨hid, if_pos hid⟩
  · exact .inr ⟨hid, if_neg hid⟩

/-! ## The call in the mutex -/

/-- JS that was posted stays posted while its call goes on. -/
theorem Posted.advance {pc' : ProverPc J} {c' : ProverCall} (h : s.Posted n c')
    (hactive : s.active = some ⟨c, pc⟩) (ht : t.active = some ⟨c, pc'⟩)
    (hreturned : t.returned = s.returned)
    (hpc : ∀ n, pc.postedId? = some n → pc'.postedId? = some n) : t.Posted n c' := by
  rcases h with ⟨a, ha, hcall, hid⟩ | ⟨r, hr, hcall, hid⟩
  · cases hactive.symm.trans ha
    exact .inl ⟨_, ht, hcall, hpc n hid⟩
  · exact .inr ⟨r, hreturned ▸ hr, hcall, hid⟩

/-- The call goes on without touching a shared field. -/
theorem BridgeInv.advance (h : BridgeInv parse s) (pc' : ProverPc J)
    (hactive : s.active = some ⟨c, pc⟩) (hid : pc'.id? = pc.id?)
    (hpending : ∀ p, s.pending = some p → pc.pendingId? = some p.id → pc'.pendingId? = some p.id)
    (hopen : ∀ n, pc'.openId? = some n → pc.openId? = some n)
    (hposted : ∀ n, pc.postedId? = some n → pc'.postedId? = some n)
    (hended : ∀ e, pc'.ended? = some e → e.fromJs = true →
      ∃ n, pc'.id? = some n ∧ Answered parse s.invocations n e) :
    BridgeInv parse { s with active := some ⟨c, pc'⟩ } where
  numbering := by
    have hids : ({ s with active := some ⟨c, pc'⟩ } : ProverBridge J).ids = s.ids := by
      rw [ids_of_active hactive, ids_of_active rfl, hid]
    exact ⟨hids ▸ h.numbering.nodup, hids ▸ h.numbering.le⟩
  dispatch :=
    { posted := fun d hd => (h.dispatch.posted d hd).advance hactive rfl rfl hposted
      nodup := h.dispatch.nodup
      fetched := h.dispatch.fetched }
  inSection :=
    { pending := by
        intro p hp
        obtain ⟨a, ha, hpc, hkind⟩ := h.inSection.pending p hp
        cases hactive.symm.trans ha
        exact ⟨_, rfl, hpending p hp hpc, hkind⟩
      upstream := by
        rintro a n ⟨⟩ hn
        exact h.inSection.upstream ⟨c, pc⟩ n hactive (hopen n hn)
      pages := by
        rintro a n ⟨⟩ hn
        exact h.inSection.pages ⟨c, pc⟩ n hactive (hopen n hn)
      fetches := by
        rintro a n ⟨⟩ hn
        exact h.inSection.fetches ⟨c, pc⟩ n hactive (hopen n hn) }
  answers :=
    { completions := h.answers.completions
      deferreds := h.answers.deferreds
      ended := by
        rintro a e ⟨⟩ he
        exact hended e he
      returned := h.answers.returned }

/-- `pending` is cleared, whoever does it. -/
theorem BridgeInv.clear (h : BridgeInv parse s) : BridgeInv parse { s with pending := none } where
  numbering := ⟨h.numbering.nodup, h.numbering.le⟩
  dispatch := ⟨h.dispatch.posted, h.dispatch.nodup, h.dispatch.fetched⟩
  inSection := ⟨nofun, h.inSection.upstream, h.inSection.pages, h.inSection.fetches⟩
  answers := ⟨h.answers.completions, h.answers.deferreds, h.answers.ended, h.answers.returned⟩

/-- Nobody in the mutex: nothing is pending. -/
theorem InSection.pending_none (h : s.InSection) (hactive : s.active = none) :
    s.pending = none := by
  refine Option.eq_none_iff_forall_ne_some.mpr fun p hp => ?_
  obtain ⟨a, ha, -⟩ := h.pending p hp
  cases hactive.symm.trans ha

theorem BridgeInv.giveUp {k : Nat} (h : BridgeInv parse s) (hst : s.giveUp k = some t) :
    BridgeInv parse t := by
  obtain ⟨c, -, rfl⟩ := Option.map_eq_some_iff.mp hst
  refine ⟨⟨?_, ?_⟩, ⟨?_, h.dispatch.nodup, h.dispatch.fetched⟩,
    ⟨h.inSection.pending, h.inSection.upstream, h.inSection.pages, h.inSection.fetches⟩,
    ⟨h.answers.completions, h.answers.deferreds, h.answers.ended, ?_⟩⟩
  · simpa [ids] using h.numbering.nodup
  · simpa [ids] using h.numbering.le
  · intro d hd
    rcases h.dispatch.posted d hd with hin | ⟨r, hr, hrest⟩
    · exact .inl hin
    · exact .inr ⟨r, List.mem_append_left _ hr, hrest⟩
  · intro r hr hjs
    rcases List.mem_append.mp hr with hr | hr
    · exact h.answers.returned r hr hjs
    · obtain rfl := List.mem_singleton.mp hr
      cases hjs

theorem BridgeInv.lock {k : Nat} (h : BridgeInv parse s) (hst : s.lock k = some t) :
    BridgeInv parse t := by
  unfold ProverBridge.lock at hst
  split at hst
  · rename_i c hactive hwait
    cases hst
    have hnone := h.inSection.pending_none hactive
    refine ⟨⟨?_, ?_⟩, ⟨?_, h.dispatch.nodup, h.dispatch.fetched⟩, ⟨?_, ?_, ?_, ?_⟩,
      ⟨h.answers.completions, h.answers.deferreds, ?_, h.answers.returned⟩⟩
    · simpa [ids, hactive, ProverPc.id?] using h.numbering.nodup
    · simpa [ids, hactive, ProverPc.id?] using h.numbering.le
    · intro d hd
      rcases h.dispatch.posted d hd with ⟨a, ha, -⟩ | hin
      · cases hactive.symm.trans ha
      · exact .inr hin
    · intro p hp
      cases hnone.symm.trans hp
    · rintro a n ⟨⟩ ⟨⟩
    · rintro a n ⟨⟩ ⟨⟩
    · rintro a n ⟨⟩ ⟨⟩
    · rintro a e ⟨⟩ ⟨⟩
  · cases hst

theorem BridgeInv.ready (h : BridgeInv parse s) (hst : s.ready = some t) : BridgeInv parse t := by
  unfold ProverBridge.ready at hst
  split at hst
  · rename_i c hactive
    cases hst
    have hids : s.ids = s.returned.filterMap ReturnedCall.id := ids_of_active hactive
    refine ⟨⟨?_, ?_⟩, ⟨?_, h.dispatch.nodup, h.dispatch.fetched⟩, ⟨?_, ?_, ?_, ?_⟩,
      ⟨h.answers.completions, h.answers.deferreds, ?_, h.answers.returned⟩⟩
    · rw [ids_of_active rfl, ← hids]
      refine List.nodup_cons.mpr ⟨fun hin => ?_, h.numbering.nodup⟩
      exact Nat.not_succ_le_self _ (h.numbering.le _ hin)
    · rw [ids_of_active rfl, ← hids]
      intro n hn
      rcases List.mem_cons.mp hn with rfl | hn
      · exact le_rfl
      · exact Nat.le_succ_of_le (h.numbering.le n hn)
    · intro d hd
      exact (h.dispatch.posted d hd).advance hactive rfl rfl nofun
    · intro p hp
      obtain ⟨a, ha, hpc, -⟩ := h.inSection.pending p hp
      cases hactive.symm.trans ha
      cases hpc
    · rintro a n ⟨⟩ ⟨⟩
    · rintro a n ⟨⟩ ⟨⟩
    · rintro a n ⟨⟩ ⟨⟩
    · rintro a e ⟨⟩ ⟨⟩
  · cases hst

theorem BridgeInv.assignPending (h : BridgeInv parse s) (hst : s.assignPending = some t) :
    BridgeInv parse t := by
  unfold ProverBridge.assignPending at hst
  split at hst
  · rename_i c id hactive
    cases hst
    have hstep := h.advance (.assigned id) hactive rfl nofun nofun nofun nofun
    refine ⟨⟨hstep.numbering.nodup, hstep.numbering.le⟩,
      ⟨hstep.dispatch.posted, hstep.dispatch.nodup, hstep.dispatch.fetched⟩,
      ⟨?_, hstep.inSection.upstream, hstep.inSection.pages, hstep.inSection.fetches⟩,
      ⟨hstep.answers.completions, hstep.answers.deferreds, hstep.answers.ended,
        hstep.answers.returned⟩⟩
    rintro p ⟨⟩
    exact ⟨_, rfl, rfl, rfl⟩
  · cases hst

/-- The upstream is set before the JS exists, so nothing of this number
has been served yet. -/
theorem BridgeInv.buildJs (h : BridgeInv parse s) (hst : s.buildJs = some t) :
    BridgeInv parse t := by
  unfold ProverBridge.buildJs at hst
  split at hst
  · rename_i c id hactive
    cases hst
    have hfresh := h.dispatch.fresh h.numbering hactive rfl rfl
    have hnodup := h.numbering.nodup
    have hle := h.numbering.le
    rw [ids_of_active hactive] at hnodup hle
    refine ⟨⟨hnodup, hle⟩, ⟨?_, h.dispatch.nodup, h.dispatch.fetched⟩, ⟨?_, ?_, ?_, ?_⟩,
      ⟨h.answers.completions, h.answers.deferreds, ?_, h.answers.returned⟩⟩
    · intro d hd
      exact (h.dispatch.posted d hd).advance hactive rfl rfl nofun
    · intro p hp
      obtain ⟨a, ha, hpc, hkind⟩ := h.inSection.pending p hp
      cases hactive.symm.trans ha
      exact ⟨_, rfl, hpc, hkind⟩
    · rintro a n ⟨⟩ -
      exact c.keeps_buildJs s.eventsUpstream
    · rintro a n ⟨⟩ ⟨⟩ inv hinv rfl
      exact absurd (mem_dispatched hinv) hfresh
    · rintro a n ⟨⟩ ⟨⟩ f hf rfl
      exact absurd (h.dispatch.fetched f hf) hfresh
    · rintro a e ⟨⟩ ⟨⟩
  · cases hst

theorem BridgeInv.post (h : BridgeInv parse s) (hst : s.post = some t) : BridgeInv parse t := by
  unfold ProverBridge.post at hst
  split at hst
  · rename_i c id hactive
    cases hst
    have hfresh := h.dispatch.fresh h.numbering hactive rfl rfl
    have hstep := h.advance (.awaiting id) hactive rfl (fun _ _ => fun hp => hp)
      (fun _ hn => hn) nofun nofun
    have hperm : ((s.posted ++ [(id, c)]) ++ s.invocations.map fun inv => (inv.id, inv.call)).Perm
        ((id, c) :: s.dispatched) := by
      rw [List.append_assoc]
      exact List.perm_middle
    refine ⟨⟨hstep.numbering.nodup, hstep.numbering.le⟩, ⟨?_, ?_, ?_⟩,
      ⟨hstep.inSection.pending, hstep.inSection.upstream, hstep.inSection.pages,
        hstep.inSection.fetches⟩,
      ⟨hstep.answers.completions, hstep.answers.deferreds, hstep.answers.ended,
        hstep.answers.returned⟩⟩
    · intro d hd
      rcases List.mem_cons.mp (hperm.mem_iff.mp hd) with rfl | hd
      · exact .inl ⟨_, rfl, rfl, rfl⟩
      · exact hstep.dispatch.posted d hd
    · refine (hperm.map Prod.fst).nodup_iff.mpr ?_
      exact List.nodup_cons.mpr ⟨hfresh, h.dispatch.nodup⟩
    · intro f hf
      refine (hperm.map Prod.fst).mem_iff.mpr ?_
      exact List.mem_cons_of_mem _ (h.dispatch.fetched f hf)
  · cases hst

theorem BridgeInv.abandon {e : ProverCall → CallEnd J} (h : BridgeInv parse s)
    (he : ∀ c, (e c).fromJs = false) (hst : s.abandon e = some t) : BridgeInv parse t := by
  have hended : ∀ (c : ProverCall) (e' : CallEnd J), some (e c) = some e' → e'.fromJs ≠ true := by
    rintro c e' ⟨⟩
    rw [he]
    exact Bool.false_ne_true
  unfold ProverBridge.abandon at hst
  split at hst
  · rename_i c hactive
    cases hst
    exact h.advance (.cleared none (e c)) hactive rfl nofun nofun nofun
      fun e' he' hjs => absurd hjs (hended c e' he')
  · rename_i c id hactive
    cases hst
    exact h.advance (.leaving id (e c)) hactive rfl (fun _ _ hp => hp) (fun _ hn => hn)
      (fun _ hn => hn) fun e' he' hjs => absurd hjs (hended c e' he')
  · cases hst

theorem BridgeInv.notReady {detail : String} (h : BridgeInv parse s)
    (hst : s.notReady detail = some t) : BridgeInv parse t := by
  unfold ProverBridge.notReady at hst
  split at hst
  · exact h.abandon (fun _ => rfl) hst
  · cases hst

theorem BridgeInv.timeout (h : BridgeInv parse s) (hst : s.timeout = some t) :
    BridgeInv parse t := by
  unfold ProverBridge.timeout at hst
  split at hst
  · exact h.abandon (fun _ => rfl) hst
  · cases hst

theorem BridgeInv.resume (h : BridgeInv parse s) (hst : s.resume = some t) : BridgeInv parse t := by
  unfold ProverBridge.resume at hst
  split at hst
  · rename_i c id hactive
    obtain ⟨e, he, rfl⟩ := Option.map_eq_some_iff.mp hst
    refine h.advance (.leaving id e) hactive rfl (fun _ _ hp => hp) (fun _ hn => hn)
      (fun _ hn => hn) ?_
    rintro e' ⟨⟩ -
    exact ⟨id, rfl, h.answers.deferreds id e he⟩
  · cases hst

theorem BridgeInv.clearPending (h : BridgeInv parse s) (hst : s.clearPending = some t) :
    BridgeInv parse t := by
  unfold ProverBridge.clearPending at hst
  split at hst
  · rename_i c id e hactive
    cases hst
    refine h.clear.advance (.cleared (some id) e) hactive rfl nofun nofun (fun _ hn => hn) ?_
    rintro e' ⟨⟩ hjs
    exact h.answers.ended _ e hactive rfl hjs
  · cases hst

theorem BridgeInv.unlock (h : BridgeInv parse s) (hst : s.unlock = some t) : BridgeInv parse t := by
  unfold ProverBridge.unlock at hst
  split at hst
  · rename_i c id e hactive
    cases hst
    have hperm : ({ s with
        active := none
        returned := s.returned ++ [{ call := c, id := id, ended := e }] } : ProverBridge J).ids.Perm
        s.ids := by
      have hlast : [({ call := c, id := id, ended := e } : ReturnedCall J)].filterMap
          ReturnedCall.id = id.toList := by
        cases id <;> rfl
      have hcomm : (s.returned.filterMap ReturnedCall.id ++ id.toList).Perm
          (id.toList ++ s.returned.filterMap ReturnedCall.id) := List.perm_append_comm
      rw [ids_of_active hactive, ids, List.filterMap_append, hlast]
      exact hcomm
    refine ⟨⟨hperm.nodup_iff.mpr h.numbering.nodup, ?_⟩,
      ⟨?_, h.dispatch.nodup, h.dispatch.fetched⟩, ⟨?_, ?_, ?_, ?_⟩,
      ⟨h.answers.completions, h.answers.deferreds, ?_, ?_⟩⟩
    · intro n hn
      exact h.numbering.le n (hperm.mem_iff.mp hn)
    · intro d hd
      rcases h.dispatch.posted d hd with ⟨a, ha, hcall, hid⟩ | ⟨r, hr, hrest⟩
      · cases hactive.symm.trans ha
        exact .inr ⟨_, List.mem_append_right _ (List.mem_singleton_self _), hcall, hid⟩
      · exact .inr ⟨r, List.mem_append_left _ hr, hrest⟩
    · intro p hp
      obtain ⟨a, ha, hpc, -⟩ := h.inSection.pending p hp
      cases hactive.symm.trans ha
      cases hpc
    · rintro a n ⟨⟩
    · rintro a n ⟨⟩
    · rintro a n ⟨⟩
    · rintro a e ⟨⟩
    · intro r hr hjs
      rcases List.mem_append.mp hr with hr | hr
      · exact h.answers.returned r hr hjs
      · obtain rfl := List.mem_singleton.mp hr
        exact h.answers.ended _ e hactive rfl hjs
  · cases hst

/-! ## The page and its threads -/

theorem BridgeInv.runPosted (h : BridgeInv parse s) (hst : s.runPosted = some t) :
    BridgeInv parse t := by
  unfold ProverBridge.runPosted at hst
  split at hst
  · cases hst
  · rename_i id c rest hposted
    cases hst
    let new : JsInvocation := { id := id, call := c, pages := [], products := [] }
    have hperm : (rest ++ (s.invocations ++ [new]).map fun inv => (inv.id, inv.call)).Perm
        s.dispatched := by
      rw [dispatched, hposted, List.map_append, ← List.append_assoc]
      exact List.perm_append_comm
    have hanswers := h.answers.grow (grows_append s.invocations [new])
    refine ⟨⟨h.numbering.nodup, h.numbering.le⟩, ⟨?_, ?_, ?_⟩,
      ⟨h.inSection.pending, h.inSection.upstream, ?_, h.inSection.fetches⟩,
      ⟨hanswers.completions, hanswers.deferreds, hanswers.ended, hanswers.returned⟩⟩
    · intro d hd
      exact h.dispatch.posted d (hperm.mem_iff.mp hd)
    · exact (hperm.map Prod.fst).nodup_iff.mpr h.dispatch.nodup
    · intro f hf
      exact (hperm.map Prod.fst).mem_iff.mpr (h.dispatch.fetched f hf)
    · intro a n ha hn inv hinv hid page hpage
      rcases List.mem_append.mp hinv with hinv | hinv
      · exact h.inSection.pages a n ha hn inv hinv hid page hpage
      · rw [List.mem_singleton.mp hinv] at hpage
        cases hpage

/-- Other requests under way, each of JS that is there and with the upstream
its call needs. -/
theorem BridgeInv.setFetches (h : BridgeInv parse s) {fetches : List ProxyFetch}
    (hfetched : ∀ f ∈ fetches, f.id ∈ s.dispatched.map Prod.fst)
    (hkeeps : ∀ a n, s.active = some a → a.pc.openId? = some n → ∀ f ∈ fetches, f.id = n →
      a.call.Keeps f.upstream) : BridgeInv parse { s with fetches := fetches } where
  numbering := ⟨h.numbering.nodup, h.numbering.le⟩
  dispatch := ⟨h.dispatch.posted, h.dispatch.nodup, hfetched⟩
  inSection := ⟨h.inSection.pending, h.inSection.upstream, h.inSection.pages, hkeeps⟩
  answers := ⟨h.answers.completions, h.answers.deferreds, h.answers.ended, h.answers.returned⟩

/-- Other completions under way or done, answered like those before. -/
theorem BridgeInv.setAnswers (h : BridgeInv parse s) {completions : List (JsCompletion J)}
    {deferreds : Nat → Option (CallEnd J)}
    (hcompletions : ∀ x ∈ completions, Answered parse s.invocations x.pending.id x.ended)
    (hdeferreds : ∀ n e, deferreds n = some e → Answered parse s.invocations n e) :
    BridgeInv parse { s with completions := completions, deferreds := deferreds } where
  numbering := ⟨h.numbering.nodup, h.numbering.le⟩
  dispatch := ⟨h.dispatch.posted, h.dispatch.nodup, h.dispatch.fetched⟩
  inSection :=
    ⟨h.inSection.pending, h.inSection.upstream, h.inSection.pages, h.inSection.fetches⟩
  answers := ⟨hcompletions, hdeferreds, h.answers.ended, h.answers.returned⟩

theorem BridgeInv.request {id : Nat} {r : ProxyRequest} (h : BridgeInv parse s)
    (hst : s.request id r = some t) : BridgeInv parse t := by
  unfold ProverBridge.request at hst
  split at hst
  · rename_i hex
    cases hst
    obtain ⟨inv, hinv, rfl⟩ := hex
    refine h.setFetches ?_ ?_
    · intro f hf
      rcases List.mem_append.mp hf with hf | hf
      · exact h.dispatch.fetched f hf
      · obtain rfl := List.mem_singleton.mp hf
        exact mem_dispatched hinv
    · intro a n ha hn f hf hid
      rcases List.mem_append.mp hf with hf | hf
      · exact h.inSection.fetches a n ha hn f hf hid
      · obtain rfl := List.mem_singleton.mp hf
        exact h.inSection.upstream a n ha hn
  · cases hst

/-- The invocations changed, but not what they are. -/
theorem BridgeInv.update (h : BridgeInv parse s) (id : Nat) (f : JsInvocation → JsInvocation)
    (hf : ∀ inv, (f inv).id = inv.id ∧ (f inv).call = inv.call)
    (hproducts : ∀ inv, inv.products ⊆ (f inv).products)
    (hpages : ∀ a n, s.active = some a → a.pc.openId? = some n → id = n →
      ∀ inv ∈ s.invocations, inv.id = n → ∀ page ∈ (f inv).pages, a.call.ServedBy page) :
    BridgeInv parse { s with invocations := s.updateInvocation id f } := by
  have hsame := map_updateInvocation s id hf
  have hdispatched : ({ s with invocations := s.updateInvocation id f } : ProverBridge J).dispatched
      = s.dispatched := congrArg (s.posted ++ ·) hsame
  have hanswers := h.answers.grow (grows_updateInvocation s id hf hproducts)
  refine ⟨⟨h.numbering.nodup, h.numbering.le⟩, ⟨?_, ?_, ?_⟩,
    ⟨h.inSection.pending, h.inSection.upstream, ?_, h.inSection.fetches⟩, hanswers⟩
  · rw [hdispatched]
    exact h.dispatch.posted
  · rw [hdispatched]
    exact h.dispatch.nodup
  · rw [hdispatched]
    exact h.dispatch.fetched
  · intro a n ha hn inv hinv hid page hpage
    obtain ⟨inv₀, hinv₀, ⟨hid₀, rfl⟩ | ⟨-, rfl⟩⟩ := mem_updateInvocation hinv
    · have hidn : inv₀.id = n := (hf inv₀).1.symm.trans hid
      exact hpages a n ha hn (hid₀.symm.trans hidn) inv₀ hinv₀ hidn page hpage
    · exact h.inSection.pages a n ha hn inv hinv₀ hid page hpage

theorem BridgeInv.reply {k : Nat} (h : BridgeInv parse s) (hst : s.reply k = some t) :
    BridgeInv parse t := by
  obtain ⟨f, hf, rfl⟩ := Option.map_eq_some_iff.mp hst
  have hfetch : f ∈ s.fetches := List.mem_of_getElem? hf
  have hstep := h.update f.id
    (fun inv => inv.serve { request := f.request, reply := proxyEvents f.upstream f.request })
    (fun _ => ⟨rfl, rfl⟩) (fun _ => List.Subset.refl _) (by
      intro a n ha hn hid inv hinv hinvid page hpage
      rcases List.mem_append.mp hpage with hpage | hpage
      · exact h.inSection.pages a n ha hn inv hinv hinvid page hpage
      · obtain rfl := List.mem_singleton.mp hpage
        exact (h.inSection.fetches a n ha hn f hfetch hid).servedBy f.request)
  refine hstep.setFetches ?_ ?_
  · intro f' hf'
    exact hstep.dispatch.fetched f' (List.mem_of_mem_eraseIdx hf')
  · intro a n ha hn f' hf'
    exact hstep.inSection.fetches a n ha hn f' (List.mem_of_mem_eraseIdx hf')

theorem onProof_eq_some {pending : Option PendingProof} {id : Nat} {answer : JsAnswer}
    {x : JsCompletion J} (h : onProof parse pending (toString id) answer = some x) :
    ∃ p, pending = some p ∧ p.id = id ∧
      x = { pending := p, ended := .ofAnswer parse p.kind answer } := by
  unfold onProof at h
  split at h
  · cases h
  · rename_i p
    split at h
    · cases h
    · rename_i hsame
      cases h
      exact ⟨p, rfl, Text.repr_inj (congrArg String.toList (not_not.mp hsame)), rfl⟩

/-- What a callback finds in `pending` is its own call, and the pages of
its invocation are that call's. -/
theorem BridgeInv.own_pending {p : PendingProof} {inv : JsInvocation} (h : BridgeInv parse s)
    (hp : s.pending = some p) (hinv : inv ∈ s.invocations) (hid : inv.id = p.id) :
    inv.call.kind = p.kind ∧ ∀ page ∈ inv.pages, inv.call.ServedBy page := by
  obtain ⟨⟨c, pc⟩, hactive, hpc, hkind⟩ := h.inSection.pending p hp
  have hcall : inv.call = c :=
    h.dispatch.call_eq h.numbering hactive (ProverPc.id?_of_pendingId? hpc) hinv hid
  refine ⟨hcall ▸ hkind.symm, ?_⟩
  rw [hcall]
  rcases ProverPc.openId?_or_unposted hpc with hopen | hunposted
  · exact h.inSection.pages ⟨c, pc⟩ p.id hactive hopen inv hinv hid
  · have hfresh :=
      h.dispatch.fresh h.numbering hactive (ProverPc.id?_of_pendingId? hpc) hunposted
    exact absurd (hid ▸ mem_dispatched hinv) hfresh

theorem BridgeInv.callBack {id : Nat} {answer : JsAnswer} (h : BridgeInv parse s)
    (hst : s.callBack parse id answer = some t) : BridgeInv parse t := by
  unfold ProverBridge.callBack at hst
  split at hst
  · rename_i hex
    cases hst
    obtain ⟨inv, hinv, hid⟩ := hex
    have hstep := h.update id (fun inv => inv.produce answer) (fun _ => ⟨rfl, rfl⟩)
      (fun _ => List.subset_append_left _ _)
      (fun a n ha hn _ inv hinv hid => h.inSection.pages a n ha hn inv hinv hid)
    refine hstep.setAnswers ?_ hstep.answers.deferreds
    intro x hx
    rcases List.mem_append.mp hx with hx | hx
    · exact hstep.answers.completions x hx
    · obtain ⟨p, hp, hpid, rfl⟩ := onProof_eq_some (Option.mem_toList.mp hx)
      have hown : inv.id = p.id := hid.trans hpid.symm
      obtain ⟨hkind, hpages⟩ := h.own_pending hp hinv hown
      have hmem : inv.produce answer ∈ s.updateInvocation id fun inv => inv.produce answer :=
        List.mem_map.mpr ⟨inv, hinv, if_pos hid⟩
      intro _
      refine ⟨inv.produce answer, hmem, hown, { answer := answer, pages := inv.pages },
        List.mem_append_right _ (List.mem_singleton_self _), ?_, hpages⟩
      exact congrArg (fun kind => CallEnd.ofAnswer parse kind answer) hkind
  · cases hst

/-- Only the first completion of a deferred counts. -/
theorem BridgeInv.complete {k : Nat} (h : BridgeInv parse s) (hst : s.complete k = some t) :
    BridgeInv parse t := by
  obtain ⟨x, hx, rfl⟩ := Option.map_eq_some_iff.mp hst
  have hcompletion : x ∈ s.completions := List.mem_of_getElem? hx
  refine h.setAnswers (fun y hy => h.answers.completions y (List.mem_of_mem_eraseIdx hy)) ?_
  intro n e he
  split at he
  · rename_i hn
    rcases Option.or_eq_some_iff.mp he with hdone | ⟨-, hnew⟩
    · exact h.answers.deferreds n e hdone
    · obtain rfl := Option.some.inj hnew
      exact hn ▸ h.answers.completions x hcompletion
  · exact h.answers.deferreds n e he

/-- `destroy` completes what is pending, but neither with a result nor
with a JS error. -/
theorem BridgeInv.destroyRead (h : BridgeInv parse s)
    (hst : next parse s .destroyRead = some t) : BridgeInv parse t := by
  cases hst
  refine h.setAnswers ?_ h.answers.deferreds
  intro x hx
  rcases List.mem_append.mp hx with hx | hx
  · exact h.answers.completions x hx
  · obtain ⟨p, -, rfl⟩ := Option.map_eq_some_iff.mp (Option.mem_toList.mp hx)
    exact Answered.of_not_fromJs rfl

theorem BridgeInv.call (h : BridgeInv parse s) (c : ProverCall) :
    BridgeInv parse { s with waiting := s.waiting ++ [c] } where
  numbering := ⟨h.numbering.nodup, h.numbering.le⟩
  dispatch := ⟨h.dispatch.posted, h.dispatch.nodup, h.dispatch.fetched⟩
  inSection :=
    ⟨h.inSection.pending, h.inSection.upstream, h.inSection.pages, h.inSection.fetches⟩
  answers := ⟨h.answers.completions, h.answers.deferreds, h.answers.ended, h.answers.returned⟩

/-! ## Every state of every run -/

theorem bridgeInv_start : BridgeInv parse start := by
  refine ⟨⟨List.nodup_nil, ?_⟩, ⟨?_, List.nodup_nil, ?_⟩, ⟨?_, ?_, ?_, ?_⟩, ⟨?_, ?_, ?_, ?_⟩⟩
  · rintro n ⟨⟩
  · rintro d ⟨⟩
  · rintro f ⟨⟩
  · rintro p ⟨⟩
  · rintro a n ⟨⟩
  · rintro a n ⟨⟩
  · rintro a n ⟨⟩
  · rintro x ⟨⟩
  · rintro n e ⟨⟩
  · rintro a e ⟨⟩
  · rintro r ⟨⟩

theorem BridgeInv.next (h : BridgeInv parse s) (act : BridgeAct)
    (hst : next parse s act = some t) : BridgeInv parse t := by
  cases act with
  | call c =>
      cases hst
      exact h.call c
  | giveUp k => exact h.giveUp hst
  | lock k => exact h.lock hst
  | notReady detail => exact h.notReady hst
  | ready => exact h.ready hst
  | assignPending => exact h.assignPending hst
  | buildJs => exact h.buildJs hst
  | post => exact h.post hst
  | timeout => exact h.timeout hst
  | cancel => exact h.abandon (fun _ => rfl) hst
  | resume => exact h.resume hst
  | clearPending => exact h.clearPending hst
  | unlock => exact h.unlock hst
  | runPosted => exact h.runPosted hst
  | request id r => exact h.request hst
  | reply k => exact h.reply hst
  | callBack id answer => exact h.callBack hst
  | complete k => exact h.complete hst
  | destroyRead => exact h.destroyRead hst
  | destroyClear =>
      cases hst
      exact h.clear

theorem bridgeInv_of_reach (h : Lts.Reach Started (Step parse) s) : BridgeInv parse s :=
  h.invariant (fun _ hs => hs ▸ bridgeInv_start) fun _ a _ _ hI hst => hI.next a hst.2

/-! ## A call returns what its own JS produced -/

/-- What the callers of the bridge can rely on. -/
structure OwnAnswers (parse : String → Except String J) (s : ProverBridge J) : Prop where
  /-- A result or JS error is what the invocation under the number of the
  call produced, served until then by the source of that call. -/
  returned : ∀ r ∈ s.returned, r.ended.fromJs = true →
    ∃ inv ∈ s.invocations, r.id = some inv.id ∧ inv.call = r.call ∧ ∃ x ∈ inv.products,
      CallEnd.ofAnswer parse r.call.kind x.answer = r.ended ∧ ∀ page ∈ x.pages, r.call.ServedBy page
  /-- So is a call that has its answer and is about to return it, and one
  that still waits: no page of another source has got to its JS. -/
  active : ∀ a n, s.active = some a → a.pc.openId? = some n →
    ∀ inv ∈ s.invocations, inv.id = n → inv.call = a.call ∧ ∀ page ∈ inv.pages, a.call.ServedBy page
  /-- One call for a number, over or not. -/
  calls : s.ids.Nodup
  /-- One invocation for a number. -/
  invocations : (s.invocations.map JsInvocation.id).Nodup

theorem Dispatch.invocations_nodup (h : s.Dispatch) :
    (s.invocations.map JsInvocation.id).Nodup := by
  have hnodup := h.nodup
  rw [dispatched, List.map_append, List.map_map] at hnodup
  exact (List.nodup_append.mp hnodup).2.1

/-- No two calls that are over share a number. -/
theorem Numbering.returned_inj (h : s.Numbering) {r r' : ReturnedCall J} (hr : r ∈ s.returned)
    (hr' : r' ∈ s.returned) (hid : r.id = some n) (hid' : r'.id = some n) : r = r' := by
  by_contra hne
  have hpairwise := List.pairwise_filterMap.mp (List.nodup_append.mp h.nodup).2.1
  have hsymm : Std.Symm fun r r' : ReturnedCall J =>
      ∀ b, r.id = some b → ∀ b', r'.id = some b' → b ≠ b' :=
    ⟨fun _ _ hrr b hb b' hb' => (hrr b' hb' b hb).symm⟩
  exact hpairwise.forall hr hr' hne n hid n hid' rfl

/-- JS under the number of a call that is over is its JS. -/
theorem Dispatch.call_eq_returned (h : s.Dispatch) (hnum : s.Numbering) {r : ReturnedCall J}
    (hr : r ∈ s.returned) {inv : JsInvocation} (hinv : inv ∈ s.invocations)
    (hid : r.id = some inv.id) : inv.call = r.call := by
  have hd : (inv.id, inv.call) ∈ s.dispatched :=
    List.mem_append_right _ (List.mem_map_of_mem hinv)
  rcases h.posted _ hd with ⟨⟨c, pc⟩, ha, -, hposted⟩ | ⟨r', hr', hcall, hid'⟩
  · exact absurd hid (hnum.not_returned ha (ProverPc.id?_of_postedId? hposted) hr)
  · rw [hnum.returned_inj hr hr' hid hid']
    exact hcall.symm

/-- **Answers reach the call that asked**, in every state of every run:
whatever JS of calls given up still does in the page, and whenever. -/
theorem ownAnswers_of_reach (h : Lts.Reach Started (Step parse) s) : OwnAnswers parse s where
  returned r hr hjs := by
    have hinv := bridgeInv_of_reach h
    obtain ⟨n, hn, hanswered⟩ := hinv.answers.returned r hr hjs
    obtain ⟨inv, hmem, rfl, x, hx, hend, hpages⟩ := hanswered hjs
    have hcall := hinv.dispatch.call_eq_returned hinv.numbering hr hmem hn
    rw [hcall] at hend hpages
    exact ⟨inv, hmem, hn, hcall, x, hx, hend, hpages⟩
  active a n ha hn inv hmem hid := by
    have hinv := bridgeInv_of_reach h
    have hcall := hinv.dispatch.call_eq hinv.numbering ha (ProverPc.id?_of_openId? hn) hmem hid
    exact ⟨hcall, hinv.inSection.pages a n ha hn inv hmem hid⟩
  calls := (bridgeInv_of_reach h).numbering.nodup
  invocations := (bridgeInv_of_reach h).dispatch.invocations_nodup

/-! ## A run -/

/-- A parser that knows the empty object. -/
def emptyObject (json : String) : Except String (List (String × String)) :=
  if json = "\x7b\x7d" then .ok []
  else .error ("Value " ++ json ++ " of type java.lang.String cannot be converted to JSONObject")

def eventsPage : ProxyRequest := { tail := "events", encodedQuery := some "limit=100" }

/-- A `goalTotal` times out and its JS goes on: its next page comes from
the source of the call after it, and its answer while that one is pending.
That one answers twice. -/
def overlap : List BridgeAct :=
  [.call (.goalTotal "\x7b\x7d" (some "http://10.0.2.2:8091") 5),
    .call (.goalTotal "\x7b\x7d" (some "http://localhost:8091/") 240000),
    .lock 0, .ready, .assignPending, .buildJs, .post, .runPosted, .request 1 eventsPage,
    .timeout, .clearPending, .unlock,
    .lock 0, .ready, .assignPending, .buildJs, .post, .runPosted, .request 2 eventsPage,
    .request 1 eventsPage, .reply 0, .reply 1, .callBack 1 (.error "aborted"), .reply 0,
    .callBack 2 (.ready "\x7b\x7d"), .complete 0, .callBack 2 (.error "late"), .complete 0,
    .resume, .clearPending, .unlock]

theorem ownAnswers_overlap :
    ∃ s : ProverBridge (List (String × String)), Lts.Reach Started (Step emptyObject) s ∧
      s.returned.map (fun r => (r.id, r.ended)) =
        [(some 1, .timeout "goalTotal" 5), (some 2, .result [])] ∧
      OwnAnswers emptyObject s := by
  have hreach : Lts.Reach Started (Step emptyObject) _ := Lts.Reach.exec (.init rfl) overlap rfl
  exact ⟨_, hreach, rfl, ownAnswers_of_reach hreach⟩

end ProverBridge

end RaizStack
