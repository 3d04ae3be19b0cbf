import RdmaTransport.Handshake.World

/-!
# What one operation does

Either peer of the handshake performs the same operations, and each does little: the stage follows
one event or none, a variable is placed by `letConn` only, a region is added by a registration only.
On the side of the card, only completions are taken from the queues, and nothing lands.

## Main definitions

* `Emits` — the event an operation that has answered stands for
* `PeerView.Moves` — what it does to the view

## Main results

* `moves_of_handler` — every operation does only this
* `End.takes_of_after`, `CmState.mono_of_after` — the same for the card and the connection manager
-/

namespace RdmaTransport

open Interaction

/-! ### The view -/

/-- The event that an operation stands for when it has been answered. -/
def Emits : (op : Op) → op.Ans → Event → Prop
  | .rdmaAccept, r, e | .rdmaConnect, r, e => CRet.isOk r = true ∧ e = .linked
  | .ibvPostRecv wr, r, e => CRet.isOk r = true ∧ e = .receiving wr.sge.addr
  | .ibvPostSend wr, r, e => CRet.isOk r = true ∧ e = .posted wr
  | .ibvPollCq cq, p, e => ∃ wc, p = .entry wc ∧ e = .polled cq wc
  | .letConn conn, a, e => e = .placed a conn
  | .readConn addr, conn, e => e = .fetched addr conn
  | .writePage _ bytes, _, e => e = .wrote bytes
  | .readPage _, page, e => e = .saw page
  | _, _, _ => False

/-- What an operation may do to a view. -/
structure PeerView.Moves {St : Type} (advance : St → Event → St) (op : Op) (r : op.Ans)
    (v v' : PeerView St) : Prop where
  /-- The stage follows an event, or stays. -/
  stage : v'.stage = v.stage ∨ ∃ e, Emits op r e ∧ v'.stage = advance v.stage e
  /-- A variable is placed at a fresh address. -/
  vars : v'.vars = v.vars ∨
    ∃ conn a, op = .letConn conn ∧ a ∉ v.vars ∧ v' = v.place advance a conn
  /-- Only a registration adds a region. -/
  regs : v'.regs = v.regs ∨ ∃ addr length access, op = .ibvRegMr addr length access
  /-- Only a disconnect closes the connection. -/
  closed : v'.closed = v.closed ∨ op = .rdmaDisconnect

section Views

variable {St : Type} {advance : St → Event → St} {v v' : PeerView St} {op : Op} {r : op.Ans}
  {c : PeerView.Choice}

theorem moves_refl : v.Moves advance op r v := ⟨.inl rfl, .inl rfl, .inl rfl, .inl rfl⟩

theorem moves_on {e : Event} (he : Emits op r e) : v.Moves advance op r (v.on advance e) :=
  ⟨.inr ⟨e, he, rfl⟩, .inl rfl, .inl rfl, .inl rfl⟩

theorem moves_called {e : Event} {r' : CRet} (he : r'.isOk = true → Emits op r e) :
    v.Moves advance op r (v.called advance e r') := by
  rw [PeerView.called]
  split
  next hok => exact moves_on (he hok)
  · exact moves_refl

/-- **One operation.** -/
theorem moves_of_handler (h : PeerView.handler advance op v c = some (r, v')) :
    v.Moves advance op r v' := by
  cases op with
  | rdmaAccept | rdmaConnect | ibvPostRecv wr | ibvPostSend wr =>
    obtain ⟨_, -, heq⟩ := Option.map_eq_some_iff.mp h
    cases heq
    exact moves_called fun hok => ⟨hok, rfl⟩
  | ibvPollCq cq =>
    obtain ⟨_, -, heq⟩ := Option.map_eq_some_iff.mp h
    cases heq
    cases r with
    | entry wc => exact moves_on ⟨wc, rfl, rfl⟩
    | _ => exact moves_refl
  | letConn conn =>
    obtain ⟨a, -, heq⟩ := Option.bind_eq_some_iff.mp h
    split at heq
    · cases heq
    next hfresh =>
      cases heq
      exact ⟨.inr ⟨_, rfl, rfl⟩, .inr ⟨conn, r, rfl, hfresh, rfl⟩, .inl rfl, .inl rfl⟩
  | readConn _ | writePage _ _ | readPage _ =>
    obtain ⟨_, -, heq⟩ := Option.map_eq_some_iff.mp h
    cases heq
    exact moves_on rfl
  | ibvRegMr addr length access =>
    obtain ⟨_, -, heq⟩ := Option.map_eq_some_iff.mp h
    cases heq
    cases r with
    | none => exact moves_refl
    | some keys => exact ⟨.inl rfl, .inl rfl, .inr ⟨addr, length, access, rfl⟩, .inl rfl⟩
  | newPage =>
    obtain ⟨_, -, heq⟩ := Option.map_eq_some_iff.mp h
    cases heq
    exact ⟨.inl rfl, .inl rfl, .inl rfl, .inl rfl⟩
  | rdmaDisconnect =>
    obtain ⟨_, -, heq⟩ := Option.map_eq_some_iff.mp h
    cases heq
    exact ⟨.inl rfl, .inl rfl, .inl rfl, .inr rfl⟩
  | ibvQueryQp | ibvModifyQp _ | cuDeviceGet _ | cuDevicePrimaryCtxRetain | cuCtxSetCurrent
  | observe _ =>
    obtain ⟨_, -, heq⟩ := Option.map_eq_some_iff.mp h
    cases heq
    exact moves_refl
  | _ => cases h

/-- Only the connection manager links. -/
theorem eq_of_emits_linked (h : Emits op r .linked) : op = .rdmaAccept ∨ op = .rdmaConnect := by
  cases op with
  | rdmaAccept => exact .inl rfl
  | rdmaConnect => exact .inr rfl
  | ibvPollCq cq =>
    obtain ⟨wc, -, he⟩ := h
    cases he
  | ibvPostRecv wr | ibvPostSend wr => cases h.2
  | letConn _ | readConn _ | writePage _ _ | readPage _ => cases h
  | _ => exact h.elim

/-- Only a write writes. -/
theorem eq_of_emits_wrote {bytes : List UInt8} (h : Emits op r (.wrote bytes)) :
    ∃ buf, op = .writePage buf bytes := by
  cases op with
  | writePage buf _ =>
    cases h
    exact ⟨buf, rfl⟩
  | ibvPollCq cq =>
    obtain ⟨wc, -, he⟩ := h
    cases he
  | rdmaAccept | rdmaConnect | ibvPostRecv wr | ibvPostSend wr => cases h.2
  | letConn _ | readConn _ | readPage _ => cases h
  | _ => exact h.elim

end Views

/-! ### The card and the connection manager -/

section Ends

variable {op : Op} {r : op.Ans} {e e' : End} {cm cm' : CmState}

/-- What an operation may do to a side. -/
structure End.Takes (e e' : End) : Prop where
  /-- Nothing lands. -/
  landed : e'.landed = e.landed
  /-- No completion is added. -/
  cq : ∀ cq wc, wc ∈ e'.cq cq → wc ∈ e.cq cq

/-- The completion at the head of a queue is taken. -/
theorem takes_of_cons (cq : Cq) {wc : IbvWc} {rest : List IbvWc} (hcq : e.cq cq = wc :: rest)
    (hlanded : e'.landed = e.landed) (htaken : e'.cq cq = rest)
    (hother : ∀ cq', cq' ≠ cq → e'.cq cq' = e.cq cq') : e.Takes e' := by
  refine ⟨hlanded, ?_⟩
  intro cq' wc' hmem
  by_cases hcq' : cq' = cq
  · subst hcq'
    rw [hcq]
    exact List.mem_cons_of_mem _ (htaken ▸ hmem)
  · rwa [← hother cq' hcq']

theorem End.takes_of_after (h : e.after op r = some e') : e.Takes e' := by
  cases op with
  | ibvPollCq cq =>
    cases r with
    | entry wc =>
      cases cq <;> simp only [End.after] at h <;> split at h
      next wc' rest hcq =>
        split at h <;> cases h
        refine takes_of_cons .send hcq rfl rfl ?_
        intro cq' hne
        cases cq' with
        | send => exact absurd rfl hne
        | recv => rfl
      · cases h
      next wc' rest hcq =>
        split at h <;> cases h
        refine takes_of_cons .recv hcq rfl rfl ?_
        intro cq' hne
        cases cq' with
        | send => rfl
        | recv => exact absurd rfl hne
      · cases h
    | _ => cases cq <;> cases h <;> exact ⟨rfl, fun _ _ => id⟩
  | readConn addr =>
    simp only [End.after] at h
    split at h <;> cases h
    exact ⟨rfl, fun _ _ => id⟩
  | ibvPostRecv wr | ibvPostSend wr =>
    cases h
    split <;> exact ⟨rfl, fun _ _ hmem => by cases ‹Cq› <;> exact hmem⟩
  | readPage _ => cases h
  | _ => cases h; exact ⟨rfl, fun _ _ hmem => by cases ‹Cq› <;> exact hmem⟩

/-- What is polled has been in the queue. -/
theorem End.mem_of_emits {cq : Cq} {wc : IbvWc} (h : e.after op r = some e')
    (hemits : Emits op r (.polled cq wc)) : op = .ibvPollCq cq ∧ wc ∈ e.cq cq := by
  cases op with
  | ibvPollCq cq' =>
    obtain ⟨wc', rfl, he⟩ := hemits
    cases he
    refine ⟨rfl, ?_⟩
    cases cq <;> simp only [End.after] at h <;> split at h
    next wc' rest hcq =>
      split at h <;> cases h
      subst_vars
      exact List.mem_of_mem_head? (by rw [End.cq, hcq]; rfl)
    · cases h
    next wc' rest hcq =>
      split at h <;> cases h
      subst_vars
      exact List.mem_of_mem_head? (by rw [End.cq, hcq]; rfl)
    · cases h
  | rdmaAccept | rdmaConnect | ibvPostRecv wr | ibvPostSend wr => cases hemits.2
  | letConn _ | readConn _ | writePage _ _ | readPage _ => cases hemits
  | _ => exact hemits.elim

/-- What the connection manager knows stays known. -/
theorem CmState.mono_of_after (h : cm.after op r = some cm') :
    (cm.accepted = true → cm'.accepted = true) ∧
      (cm.disconnected = true → cm'.disconnected = true) := by
  cases op with
  | rdmaAccept =>
    cases h
    exact ⟨fun hup => by simp [hup], id⟩
  | rdmaDisconnect =>
    cases h
    exact ⟨id, fun hdown => by simp [hdown]⟩
  | rdmaConnect =>
    simp only [CmState.after] at h
    split at h <;> cases h
    exact ⟨id, id⟩
  | _ => cases h; exact ⟨id, id⟩

end Ends

end RdmaTransport
