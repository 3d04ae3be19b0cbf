import RdmaTransport.Footprints
import RdmaTransport.Vllm.Listen

/-!
# What a server acquires and gives back

Every connection that gets so far registers its page, retains the device's primary context and
registers the GPU buffers, in that order. The listener releases the context once, when it is told to
stop, and nothing deregisters a region: `ibv_dereg_mr` has no caller and dropping an `IbvMr` does
not call it. So a server that is shut down has given back what it acquired in one case only, that it
has acquired nothing and its release has failed before it got to the device.

## Main definitions

* `Kept`, `Answered` — what a handler and the listener have done at any time
* `Shutdown` — all threads have ended and the listener has been told to stop
* `Balanced` — retains and releases match, and every region has been deregistered

## Main results

* `always_handlerTask_kept`, `always_listen_answered` — the threads
* `balanced_iff` — when a server that is shut down has given everything back
-/

namespace RdmaTransport

open Interaction

namespace Server

variable {gpuOrdinal : Int} {gpuBuffers : List GPUMemBuffer} {n : ℕ} {op : Op}
  {v v' : TaskView} {choice : TaskView.Choice}

/-! ### A handler -/

/-- What a handler has done: it releases and deregisters nothing, and it retains the context only
once its page is registered. -/
structure Kept (v : TaskView) : Prop where
  /-- It has released nothing. -/
  released : v.released = 0
  /-- It has deregistered nothing. -/
  deregistered : v.deregistered = []
  /-- What it has retained came after a region. -/
  retained : v.retained ≠ 0 → v.regions ≠ []

/-- The operation gives nothing back. -/
def Keeping : Op → Prop
  | .cuDevicePrimaryCtxRelease | .ibvDeregMr _ => False
  | _ => True

/-- The operation neither retains the context nor gives anything back. -/
def Neutral (op : Op) : Prop := Keeping op ∧ op ≠ .cuDevicePrimaryCtxRetain

theorem received_keeping (v : TaskView) (notification : Notification) :
    (v.received notification).released = v.released ∧
      (v.received notification).deregistered = v.deregistered ∧
      (v.received notification).regions = v.regions ∧
      (v.received notification).retained = v.retained := by
  unfold TaskView.received
  split
  · exact ⟨rfl, rfl, rfl, rfl⟩
  split <;> exact ⟨rfl, rfl, rfl, rfl⟩

/-- Such an operation adds to the regions at most. -/
theorem handler_keeping {r : op.Ans} (hop : Keeping op)
    (hr : TaskView.handler op v choice = some (r, v')) :
    v'.released = v.released ∧ v'.deregistered = v.deregistered ∧
      (v.regions ≠ [] → v'.regions ≠ []) ∧
      (op ≠ .cuDevicePrimaryCtxRetain → v'.retained = v.retained) := by
  unfold TaskView.handler at hr
  split at hr
  all_goals first
    | exact hop.elim
    | cases hr; exact ⟨rfl, rfl, id, fun _ => rfl⟩
    | skip
  · next ks =>
    cases hr
    cases ks with
    | none => exact ⟨rfl, rfl, id, fun _ => rfl⟩
    | some keys => exact ⟨rfl, rfl, fun _ => by simp [TaskView.registered], fun _ => rfl⟩
  · cases hr
    split
    · exact ⟨rfl, rfl, id, fun hne => absurd rfl hne⟩
    · exact ⟨rfl, rfl, id, fun _ => rfl⟩
  · next o =>
    cases hr
    cases o with
    | decoded notification =>
      obtain ⟨hrel, hdereg, hregions, hret⟩ := received_keeping v notification
      exact ⟨hrel, hdereg, fun h => hregions ▸ h, fun _ => hret⟩
    | _ => exact ⟨rfl, rfl, id, fun _ => rfl⟩
  · cases hr

theorem Kept.neutral {r : op.Ans} (h : Kept v) (hop : Neutral op)
    (hr : TaskView.handler op v choice = some (r, v')) : Kept v' := by
  obtain ⟨hrel, hdereg, hregions, hret⟩ := handler_keeping hop.1 hr
  exact ⟨hrel.trans h.released, hdereg.trans h.deregistered,
    fun hne => hregions (h.retained (hret hop.2 ▸ hne))⟩

theorem Kept.keeping {r : op.Ans} (h : Kept v) (hreg : v.regions ≠ []) (hop : Keeping op)
    (hr : TaskView.handler op v choice = some (r, v')) : Kept v' ∧ v'.regions ≠ [] := by
  obtain ⟨hrel, hdereg, hregions, -⟩ := handler_keeping hop hr
  exact ⟨⟨hrel.trans h.released, hdereg.trans h.deregistered, fun _ => hregions hreg⟩,
    hregions hreg⟩

/-- A program that does not touch the context. -/
theorem always_of_neutral {α : Type} {p : Task α} (hp : p.Only Neutral) (hv : Kept v) :
    TaskView.handler.Always (fun _ => Kept) (fun _ => Kept) p v :=
  Handler.Always.of_only hp hv (fun _ _ _ h => h) fun _ _ _ _ _ hop h hr => h.neutral hop hr

/-- A program that gives nothing back, once a region has been registered. -/
theorem always_of_keeping {α : Type} {p : Task α} (hp : p.Only Keeping) (hv : Kept v)
    (hreg : v.regions ≠ []) :
    TaskView.handler.Always (fun _ => Kept) (fun _ v => Kept v ∧ v.regions ≠ []) p v :=
  Handler.Always.of_only hp ⟨hv, hreg⟩ (fun _ _ _ h => h.1)
    fun _ _ _ _ _ hop h hr => h.1.keeping h.2 hop hr

theorem keeping_of_settingUp (op : Op) (h : SettingUp op) : Keeping op := by
  cases op <;> first | exact h.elim | trivial

theorem keeping_of_serving {cpuMr : IbvMr} {cpuBuffer : MemBuffer} (op : Op)
    (h : Serving cpuMr cpuBuffer op) : Keeping op := by
  cases op <;> first | exact h.elim | trivial

/-- The registration of the page. -/
theorem always_registerPage (cpuBuffer : MemBuffer) (hv : Kept v) :
    TaskView.handler.Always (fun _ => Kept) (fun r v => Kept v ∧ ∀ mr, r = .ok mr → v.regions ≠ [])
      (ibvRegMr cpuBuffer.ptr cpuBuffer.getSize mrAccess).run v := by
  have hop : Neutral (.ibvRegMr cpuBuffer.ptr cpuBuffer.getSize mrAccess) := ⟨trivial, nofun⟩
  refine ⟨hv, ?_⟩
  intro choice ks v' hr
  have hkept : Kept v' := hv.neutral hop hr
  cases choice <;> cases hr
  cases ks with
  | none => exact ⟨hkept, nofun⟩
  | some keys => exact ⟨hkept, fun _ _ => by simp [TaskView.registered]⟩

/-- `accept` returns a value only after its page has been registered. -/
theorem always_accept_kept (gpuOrdinal : Int) (gpuBuffers : List GPUMemBuffer) (hv : Kept v) :
    TaskView.handler.Always (fun _ => Kept)
      (fun r v => Kept v ∧ ∀ out, r = .ok out → v.regions ≠ [])
      (accept gpuOrdinal gpuBuffers).run v := by
  rw [accept_eq]
  refine Fallible.always_andThen
    (always_of_neutral (Fallible.only_call ⟨trivial, nofun⟩) hv) (fun _ _ h => ⟨h, nofun⟩) ?_
  intro _ v₁ h₁
  refine Fallible.always_andThen
    (always_of_neutral (Fallible.only_call ⟨trivial, nofun⟩) h₁) (fun _ _ h => ⟨h, nofun⟩) ?_
  intro _ v₂ h₂
  refine Fallible.always_andThen
    (always_of_neutral (Fallible.only_call ⟨trivial, nofun⟩) h₂) (fun _ _ h => ⟨h, nofun⟩) ?_
  intro cpuBuffer v₃ h₃
  rw [Fallible.run_andThen]
  refine (always_registerPage cpuBuffer h₃).bind ?_
  rintro r v₄ ⟨h₄, hreg⟩
  cases r with
  | error e => exact ⟨h₄, nofun⟩
  | ok cpuMr =>
    refine (always_of_keeping ((only_acceptRegistered _ _ _ _).mono keeping_of_settingUp) h₄
      (hreg cpuMr rfl)).mono ?_
    exact fun _ _ h => ⟨h.1, fun _ _ => h.2⟩

/-- **Every handler** retains the context only once its page is registered, and gives nothing
back. -/
theorem always_handlerTask_kept (gpuOrdinal : Int) (gpuBuffers : List GPUMemBuffer) (n : ℕ) :
    TaskView.handler.Always (fun _ => Kept) (fun _ => Kept) (handlerTask gpuOrdinal gpuBuffers n)
      .init := by
  rw [handlerTask_eq_bind]
  refine (always_accept_kept _ _ ⟨rfl, rfl, fun h => absurd rfl h⟩).bind ?_
  rintro r v ⟨hv, hreg⟩
  cases r with
  | ok out =>
    refine (always_of_keeping ((only_handler _ _ n).mono keeping_of_serving) hv
      (hreg out rfl)).mono ?_
    exact fun _ _ h => h.1
  | error e =>
    exact always_of_neutral (p := Task.call (.observe (.error _ e)) fun _ => handlerEnd)
      ⟨⟨trivial, nofun⟩, fun _ =>
        only_handlerEnd ⟨trivial, nofun⟩ ⟨trivial, nofun⟩⟩ hv

/-! ### The listener -/

/-- What the listener has done: it acquires nothing. -/
structure TakesNothing (v : TaskView) : Prop where
  /-- It has retained nothing. -/
  retained : v.retained = 0
  /-- It has registered nothing. -/
  regions : v.regions = []
  /-- It has deregistered nothing. -/
  deregistered : v.deregistered = []

/-- The listener has not been told to stop and has asked the device for nothing. -/
structure Open (v : TaskView) : Prop where
  /-- It has acquired nothing. -/
  takesNothing : TakesNothing v
  /-- It has not been told to stop. -/
  stopped : v.stopped = false
  /-- It has not asked for the device. -/
  devices : v.devices = []
  /-- It has released nothing. -/
  released : v.released = 0

/-- The listener has been told to stop and has released the context once, unless it could not even
get the device. -/
def Answered (v : TaskView) : Prop :=
  TakesNothing v ∧
    ((∃ c ≠ 0, v.devices = [c] ∧ v.released = 0) ∨ (v.devices = [0] ∧ v.released = 1))

/-- What the listener finds: it acquires nothing, and panics before it is told to stop or after it
has answered. -/
def ListenRule (op : Op) (v : TaskView) : Prop :=
  TakesNothing v ∧
    match op with
    | .panic _ => v.stopped = true → Answered v
    | _ => True

theorem run_cudaDevicePrimaryCtxRelease (gpuOrdinal : Int) :
    (cudaDevicePrimaryCtxRelease gpuOrdinal).run =
      Task.call (.cuDeviceGet gpuOrdinal) fun c =>
        match cudaCall "cuDeviceGet" c with
        | .error e => .ret (.error e)
        | .ok _ => Task.call .cuDevicePrimaryCtxRelease fun c =>
            .ret (cudaCall "cuDevicePrimaryCtxRelease_v2" c) := by
  refine congrArg (Prog.vis (S := iface) _) (funext fun c => ?_)
  change (Fallible.andThen (Fallible.ofExcept (cudaCall "cuDeviceGet" c)) _).run = _
  cases h : cudaCall "cuDeviceGet" c <;> rfl

/-- The release, asked for once. -/
theorem always_cudaDevicePrimaryCtxRelease (gpuOrdinal : Int) (hv : TakesNothing v)
    (hdevices : v.devices = []) (hreleased : v.released = 0) :
    TaskView.handler.Always ListenRule (fun _ => Answered)
      (cudaDevicePrimaryCtxRelease gpuOrdinal).run v := by
  rw [run_cudaDevicePrimaryCtxRelease]
  refine ⟨⟨hv, trivial⟩, ?_⟩
  intro choice c v₁ h₁
  cases choice <;> cases h₁
  have hv₁ : TakesNothing { v with devices := v.devices ++ [c] } :=
    ⟨hv.retained, hv.regions, hv.deregistered⟩
  by_cases hc : c = 0
  · have hok : cudaCall "cuDeviceGet" c = .ok () := if_pos hc
    simp only [hok]
    refine ⟨⟨hv₁, trivial⟩, ?_⟩
    intro choice _ v₂ h₂
    cases choice <;> cases h₂
    exact ⟨⟨hv.retained, hv.regions, hv.deregistered⟩,
      .inr ⟨by simp [hdevices, hc], by simp [hreleased]⟩⟩
  · have herr : cudaCall "cuDeviceGet" c = .error _ := if_neg hc
    simp only [herr]
    exact ⟨hv₁, .inl ⟨c, hc, by simp [hdevices], hreleased⟩⟩

/-- One pass. -/
theorem always_listenIteration (gpuOrdinal : Int) (hv : Open v) :
    TaskView.handler.Always ListenRule (fun o v => o.elim (Open v) fun _ => Answered v)
      (listenIteration gpuOrdinal) v := by
  obtain ⟨⟨hret, hreg, hdereg⟩, hstopped, hdevices, hreleased⟩ := hv
  refine ⟨⟨⟨hret, hreg, hdereg⟩, trivial⟩, ?_⟩
  intro choice s v₁ h₁
  cases choice <;> cases h₁
  cases s with
  | connection =>
    have hempty : TakesNothing { v with stopped := v.stopped || Selected.connection == .command } :=
      ⟨hret, hreg, hdereg⟩
    refine ⟨⟨hempty, trivial⟩, ?_⟩
    intro choice _ v₂ h₂
    cases choice <;> cases h₂
    refine ⟨⟨hempty, trivial⟩, ?_⟩
    intro choice _ v₃ h₃
    cases choice <;> cases h₃
    exact ⟨hempty, by simp [TaskView.note, hstopped], hdevices, hreleased⟩
  | neither =>
    refine ⟨⟨⟨hret, hreg, hdereg⟩, ?_⟩, fun _ r => r.elim⟩
    simp [hstopped]
  | command =>
    refine (always_cudaDevicePrimaryCtxRelease gpuOrdinal
      (v := { v with stopped := v.stopped || Selected.command == .command })
      ⟨hret, hreg, hdereg⟩ hdevices hreleased).bind ?_
    intro r v₂ hv₂
    cases r with
    | ok _ => exact hv₂
    | error e => exact ⟨⟨hv₂.1, fun _ => hv₂⟩, fun _ r => r.elim⟩

/-- **The listener** acquires nothing and, once it has been told to stop, has released the context
once by the time it ends, unless it could not get the device. -/
theorem always_listen (gpuOrdinal : Int) (n : ℕ) :
    TaskView.handler.Always ListenRule (fun o v => o.elim (Open v) fun _ => Answered v)
      (listen gpuOrdinal n) .init := by
  refine (Handler.Always.loop (J := Open) (R := fun _ => Answered)
    (fun v hv => always_listenIteration gpuOrdinal hv) n ⟨⟨rfl, rfl, rfl⟩, rfl, rfl, rfl⟩).bind ?_
  intro o v hv
  cases o with
  | none => exact hv
  | some _ =>
    refine ⟨⟨hv.1, trivial⟩, ?_⟩
    intro choice _ v₁ h₁
    cases choice <;> cases h₁
    exact hv

/-! ### The server -/

variable {p : ServerPool} {size m : ℕ}

/-- The task has returned or panicked. One whose unrolled loop has run through has not. -/
def hasEnded : Task (Option Unit) → Bool
  | .ret o => o.isSome
  | .vis (.panic _) _ => true
  | .vis _ _ => false

/-- All threads have ended, and the listener has been told to stop. -/
structure Shutdown (p : ServerPool) : Prop where
  /-- Nothing runs any more. -/
  ended : ∀ t ∈ p.threads, hasEnded t.prog = true
  /-- `Command::Disconnect` has been received. -/
  stopped : ∃ t, p.threads[0]? = some t ∧ t.world.stopped = true

/-- Everything has been given back: there have been as many releases of the context as successful
retains, and every region has been deregistered, by whomever. -/
structure Balanced (p : ServerPool) : Prop where
  /-- The context. -/
  context : (p.threads.map fun t => t.world.retained).sum =
    (p.threads.map fun t => t.world.released).sum
  /-- The regions. -/
  regions : ∀ t ∈ p.threads, ∀ mr ∈ t.world.regions, ∃ u ∈ p.threads, mr ∈ u.world.deregistered

/-- No registration has succeeded, and when the listener was told to stop it could not get the
device. -/
structure NothingAcquired (p : ServerPool) : Prop where
  /-- No region. -/
  regions : ∀ t ∈ p.threads, t.world.regions = []
  /-- `cuDeviceGet` has failed. -/
  device : ∃ t, p.threads[0]? = some t ∧ ∃ c ∈ t.world.devices, c ≠ 0

theorem follows_resources
    (hr : Reach (step gpuOrdinal gpuBuffers) anyStep (started size gpuOrdinal m) p) :
    p.Follows TaskView.handler (fun i op v => if i = 0 then ListenRule op v else Kept v)
      (fun i o v => if i = 0 then o.elim (Open v) fun _ => Answered v else Kept v) := by
  refine follows hr ?_ ?_
  · simpa using always_listen gpuOrdinal m
  · intro j hj n
    simpa [hj] using always_handlerTask_kept gpuOrdinal gpuBuffers n

/-- **A server that is shut down**: the listener has answered, and every other thread has given
nothing back. -/
theorem answered_of_shutdown
    (hr : Reach (step gpuOrdinal gpuBuffers) anyStep (started size gpuOrdinal m) p)
    (hs : Shutdown p) :
    ∃ t₀, p.threads[0]? = some t₀ ∧ Answered t₀.world ∧ ∀ t ∈ p.threads, t = t₀ ∨ Kept t.world := by
  have hf := follows_resources hr
  obtain ⟨⟨v, prog⟩, h₀, hstopped⟩ := hs.stopped
  refine ⟨_, h₀, ?_, ?_⟩
  · have hended : hasEnded prog = true := hs.ended _ (List.mem_of_getElem? h₀)
    unfold hasEnded at hended
    split at hended
    · next o =>
      obtain ⟨u, rfl⟩ := Option.isSome_iff_exists.mp hended
      exact hf.returned h₀
    · next msg k =>
      have hrule : ListenRule (.panic msg) v := hf.head h₀
      exact hrule.2 hstopped
    · cases hended
  · intro t ht
    obtain ⟨i, hi⟩ := List.mem_iff_getElem?.mp ht
    by_cases hi₀ : i = 0
    · subst hi₀
      exact .inl (Option.some.inj (hi.symm.trans h₀))
    · have hkept := hf i t hi
      simp only [hi₀, if_false] at hkept
      obtain ⟨w, q⟩ := t
      cases q with
      | ret o => exact .inr hkept
      | vis op k => exact .inr hkept.head

/-- Only the listener releases anything. -/
theorem released_eq_zero {t₀ : Config iface TaskView (Option Unit)}
    (hothers : ∀ t ∈ p.threads, t = t₀ ∨ Kept t.world) (h : t₀.world.released = 0) :
    ∀ t ∈ p.threads, t.world.released = 0 := by
  intro t ht
  rcases hothers t ht with rfl | hkept
  · exact h
  · exact hkept.released

/-- Without a region there is no context: a handler registers its page first. -/
theorem retained_eq_zero {t₀ : Config iface TaskView (Option Unit)} (h₀ : Answered t₀.world)
    (hothers : ∀ t ∈ p.threads, t = t₀ ∨ Kept t.world)
    (hregions : ∀ t ∈ p.threads, t.world.regions = []) :
    ∀ t ∈ p.threads, t.world.retained = 0 := by
  intro t ht
  rcases hothers t ht with rfl | hkept
  · exact h₀.1.retained
  · exact of_not_not fun hne => hkept.retained hne (hregions t ht)

/-- Nothing is deregistered, so nothing may have been registered. -/
theorem regions_eq_nil {t₀ : Config iface TaskView (Option Unit)} (h₀ : Answered t₀.world)
    (hothers : ∀ t ∈ p.threads, t = t₀ ∨ Kept t.world) (hb : Balanced p) :
    ∀ t ∈ p.threads, t.world.regions = [] := by
  have hderegistered : ∀ t ∈ p.threads, t.world.deregistered = [] := by
    intro t ht
    rcases hothers t ht with rfl | hkept
    · exact h₀.1.deregistered
    · exact hkept.deregistered
  intro t ht
  refine List.eq_nil_iff_forall_not_mem.mpr ?_
  intro mr hmr
  obtain ⟨u, hu, hmem⟩ := hb.regions t ht mr hmr
  rw [hderegistered u hu] at hmem
  cases hmem

/-- The listener has released nothing if and only if it could not get the device. -/
theorem Answered.released_eq_zero_iff {v : TaskView} (h : Answered v) :
    v.released = 0 ↔ ∃ c ∈ v.devices, c ≠ 0 := by
  obtain ⟨-, ⟨c, hc, hdevices, hzero⟩ | ⟨hdevices, hone⟩⟩ := h
  · exact iff_of_true hzero ⟨c, by simp [hdevices], hc⟩
  · exact iff_of_false (by omega) (by simp [hdevices])

/-- **Balance.** A server that is shut down has given everything back if and only if no
registration has ever succeeded and its own release could not even get the device. -/
theorem balanced_iff
    (hr : Reach (step gpuOrdinal gpuBuffers) anyStep (started size gpuOrdinal m) p)
    (hs : Shutdown p) : Balanced p ↔ NothingAcquired p := by
  obtain ⟨t₀, h₀, hanswered, hothers⟩ := answered_of_shutdown hr hs
  constructor
  · intro hb
    have hregions := regions_eq_nil hanswered hothers hb
    have hzero : (p.threads.map fun t => t.world.released).sum = 0 := by
      rw [← hb.context]
      refine List.sum_eq_zero_iff_forall_eq_nat.mpr ?_
      simpa using retained_eq_zero hanswered hothers hregions
    have hreleased : t₀.world.released = 0 :=
      List.sum_eq_zero_iff_forall_eq_nat.mp hzero _ (List.mem_map_of_mem (List.mem_of_getElem? h₀))
    exact ⟨hregions, t₀, h₀, hanswered.released_eq_zero_iff.mp hreleased⟩
  · rintro ⟨hregions, t, ht, hdevice⟩
    obtain rfl : t = t₀ := Option.some.inj (ht.symm.trans h₀)
    have hretained := retained_eq_zero hanswered hothers hregions
    have hreleased := released_eq_zero hothers (hanswered.released_eq_zero_iff.mpr hdevice)
    refine ⟨?_, ?_⟩
    · rw [List.sum_eq_zero_iff_forall_eq_nat.mpr (by simpa using hretained),
        List.sum_eq_zero_iff_forall_eq_nat.mpr (by simpa using hreleased)]
    · intro u hu mr hmr
      rw [hregions u hu] at hmr
      cases hmr

/-- A server that takes a connection whose queue pair cannot be queried, so that nothing is
registered for it, and that is told to stop when the device is gone. -/
theorem balanced_iff_device_lost : ∃ p, Reach (step 0 []) anyStep (started 1024 0 2) p ∧
    p.threads.length = 2 ∧ Shutdown p ∧ Balanced p := by
  obtain ⟨p, hp, hlength, hs, hregions, hdevice⟩ :
      ∃ p, Reach (step 0 []) anyStep (started 1024 0 2) p ∧ p.threads.length = 2 ∧ Shutdown p ∧
        (p.threads.all fun t => t.world.regions.isEmpty) ∧
        ∃ t, p.threads[0]? = some t ∧ ∃ c ∈ t.world.devices, c ≠ 0 :=
    exists_reach_of_execWithin (takeLabels ++ [(1, .ret (.ret 22 0)), (1, .go),
      (1, .ret (.ret 0 0)), (0, .selected .command), (0, .code 100)]) ⟨_, rfl, rfl,
        ⟨List.all_eq_true.mp rfl, _, rfl, rfl⟩, rfl, _, rfl, 100, by decide, by decide⟩
  refine ⟨p, hp, hlength, hs, (balanced_iff hp hs).mpr ⟨fun t ht => ?_, hdevice⟩⟩
  exact List.isEmpty_iff.mp (List.all_eq_true.mp hregions t ht)

/-- A connection is taken, accepted, and closed by a done notification. -/
def connectionLabels (i : ℕ) : List (ℕ × TaskView.Choice) :=
  takeLabels ++ acceptLabels i ++ deliverLabels i .complete ++ [(i, .go), (i, .ret (.ret 0 0))]

/-- Two connections end as they should, and there are two retains against one release. -/
theorem two_connections_unbalanced : ∃ p, Reach (step 0 []) anyStep (started 1024 0 3) p ∧
    Shutdown p ∧ ¬ Balanced p := by
  obtain ⟨p, hp, hs, hretained, hreleased⟩ :
      ∃ p, Reach (step 0 []) anyStep (started 1024 0 3) p ∧ Shutdown p ∧
        (p.threads.map fun t => t.world.retained).sum = 2 ∧
        (p.threads.map fun t => t.world.released).sum = 1 :=
    exists_reach_of_execWithin (connectionLabels 1 ++ connectionLabels 2 ++
      [(0, .selected .command), (0, .code 0), (0, .code 0), (0, .go)]) ⟨_, rfl,
        ⟨List.all_eq_true.mp rfl, _, rfl, rfl⟩, rfl, rfl⟩
  refine ⟨p, hp, hs, ?_⟩
  intro hb
  have hcontext := hb.context
  omega

end Server

end RdmaTransport
