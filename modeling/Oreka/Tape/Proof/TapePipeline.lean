import Oreka.Lib.Links
import Oreka.Tape.TapeProcessor

/-!
# The way of a tape through the processors

The chain is what `Links.lay` makes of the processors that the configuration names. On a chain that ends,
each passage visits its stations in their order, each once.
-/

namespace Oreka

variable {π : Type*}

namespace TapeProcessorRegistry

variable {getName : π → String} {r : TapeProcessorRegistry π}

/-! ## The chain -/

section Chain

variable [DecidableEq π]

/-- The processors that the configuration names. -/
def named (getName : π → String) (r : TapeProcessorRegistry π) (names : List String) : List π :=
  names.filterMap (r.getNewTapeProcessor getName)

/-- A name that no processor has. -/
theorem addToChain_of_none {name : String} (h : r.getNewTapeProcessor getName name = none) (previous : Option π) :
    addToChain getName (r, previous) name = (r, previous) := by
  simp [addToChain, h]

/-- The loop, from behind a processor. -/
theorem foldl_addToChain_some (names : List String) (s : TapeProcessorRegistry π) (p q : π)
    (hp : s.firstTapeProcessor = some p) :
    (names.foldl (addToChain getName) (s, some q)).1.firstTapeProcessor = some p ∧
      (names.foldl (addToChain getName) (s, some q)).1.nextProcessor =
        Links.lay s.nextProcessor (q :: named getName s names) := by
  induction names generalizing s q with
  | nil => exact ⟨hp, rfl⟩
  | cons name names ih =>
    cases hname : s.getNewTapeProcessor getName name with
    | none =>
      rw [List.foldl_cons, addToChain_of_none hname, named, List.filterMap_cons_none hname]
      exact ih s q hp
    | some x =>
      rw [List.foldl_cons, named, List.filterMap_cons_some hname, Links.lay]
      simp only [addToChain, hname, hp, Option.some_or]
      exact ih _ x rfl

/-- The loop, from the start. -/
theorem createProcessingChain_eq (getName : π → String) (names : List String)
    (hfirst : r.firstTapeProcessor = none) :
    (r.createProcessingChain getName names).firstTapeProcessor = (named getName r names).head? ∧
      (r.createProcessingChain getName names).nextProcessor =
        Links.lay r.nextProcessor (named getName r names) := by
  induction names with
  | nil => exact ⟨hfirst, rfl⟩
  | cons name names ih =>
    cases hname : r.getNewTapeProcessor getName name with
    | none =>
      rw [createProcessingChain, List.foldl_cons, addToChain_of_none hname, named, List.filterMap_cons_none hname]
      exact ih
    | some x =>
      rw [createProcessingChain, List.foldl_cons, named, List.filterMap_cons_some hname]
      simp only [addToChain, hname, hfirst, Option.none_or]
      exact foldl_addToChain_some names _ x x rfl

/-- What `CreateProcessingChain` makes of the named processors: the chain ends unless the last of them is
named before; it is then a part of the list without repetitions, all of it where no processor is named twice. -/
structure ChainOf (r : TapeProcessorRegistry π) (processors : List π) : Prop where
  first : r.firstTapeProcessor = processors.head?
  ends : ∀ x pre z, processors.head? = some x → processors = pre ++ [z] →
    ((∃ route, Links.Path r.nextProcessor x route) ↔ z ∉ pre)
  route : ∀ x route, processors.head? = some x → Links.Path r.nextProcessor x route →
    route.Nodup ∧ route.Sublist processors
  whole : ∀ x, processors.head? = some x → processors.Nodup → Links.Path r.nextProcessor x processors

/-- **The processing chain** of every configuration and every registry of processors. -/
theorem createProcessingChain_chain (getName : π → String) (tapeProcessors : List π) (names : List String) :
    ChainOf (({ tapeProcessors } : TapeProcessorRegistry π).createProcessingChain getName names)
      (names.filterMap (({ tapeProcessors } : TapeProcessorRegistry π).getNewTapeProcessor getName)) := by
  obtain ⟨hfirst, hnext⟩ := createProcessingChain_eq (r := { tapeProcessors }) getName names rfl
  refine ⟨hfirst, fun x pre z hx hl => ?_, fun x route hx hp => ?_, fun x hx hl => ?_⟩
  · rw [hnext]
    exact Links.exists_path_iff hl hx
  · rw [hnext] at hp
    exact ⟨hp.nodup, hp.sublist hx⟩
  · rw [hnext]
    exact Links.path_of_nodup hl hx

end Chain

/-! ## What comes next -/

variable {tape : TapeKind} {route : List π}

/-- The processors of a part of the chain that are not for `CommandProcessing` alone. -/
def onward (getName : π → String) (tape : TapeKind) (l : List π) : List π :=
  l.filter fun p => !skips getName tape p

theorem onward_of_not_external (h : tape.isExternal = false) (l : List π) : onward getName tape l = l := by
  simp [onward, skips, h]

/-- With enough calls, `RunNextProcessor` finds the next processor that the tape does not pass over. -/
theorem runNextProcessor_eq {a : π} (hp : Links.Path r.nextProcessor a route) (n : Nat) (pre : List π)
    {post : List π} {p : π} (hroute : route = pre ++ p :: post) (hn : post.length < n) :
    r.runNextProcessor getName tape n p = some (onward getName tape post).head? := by
  induction post generalizing n pre p with
  | nil =>
    obtain ⟨n, rfl⟩ := Nat.exists_eq_succ_of_ne_zero (Nat.ne_of_gt hn)
    simp [runNextProcessor, hp.next_eq hroute, onward]
  | cons q post ih =>
    obtain ⟨n, rfl⟩ := Nat.exists_eq_succ_of_ne_zero (Nat.ne_of_gt (Nat.lt_of_le_of_lt (Nat.zero_le _) hn))
    rw [List.length_cons] at hn
    have hq : route = (pre ++ [p]) ++ q :: post := by simp [hroute]
    simp only [runNextProcessor, hp.next_eq hroute, List.head?_cons]
    split
    · rename_i hs
      rw [ih n _ hq (by omega)]
      simp [onward, hs]
    · rename_i hs
      simp [onward, hs]

end TapeProcessorRegistry

namespace TapePipeline

open TapeProcessorRegistry

variable {cfg : PipelineConfig π} {route : List π} {s : TapePipeline π}

/-- Nothing is passed on by `Reporting`. -/
def untilReporting (isReporting : π → Bool) : List π → List π
  | [] => []
  | p :: l => if isReporting p then [p] else p :: untilReporting isReporting l

/-- The processors that a tape is for. -/
def stations (cfg : PipelineConfig π) (route : List π) (tape : TapeKind) : List π :=
  untilReporting cfg.isReporting <|
    if tape.isExternal then
      if route.head?.any fun p => compareNoCase (cfg.getName p) "BatchProcessing" then
        onward cfg.getName tape route.tail
      else []
    else route

/-- The configured chain ends, and its route is known. -/
structure Routed (cfg : PipelineConfig π) (route : List π) : Prop where
  first : cfg.registry.firstTapeProcessor = route.head?
  path : ∀ p, route.head? = some p → Links.Path cfg.registry.nextProcessor p route
  calls : route.length ≤ cfg.calls

theorem untilReporting_isPrefixOf (isReporting : π → Bool) (l : List π) :
    untilReporting isReporting l <+: l := by
  induction l with
  | nil => exact List.nil_prefix
  | cons p l ih =>
    rw [untilReporting]
    split
    · exact ⟨l, rfl⟩
    · obtain ⟨t, ht⟩ := ih
      exact ⟨t, by rw [List.cons_append, ht]⟩

theorem stations_sublist (cfg : PipelineConfig π) (route : List π) (tape : TapeKind) :
    (stations cfg route tape).Sublist route := by
  refine (untilReporting_isPrefixOf _ _).sublist.trans ?_
  split
  · split
    · exact List.filter_sublist.trans (List.tail_sublist route)
    · exact List.nil_sublist _
  · exact List.Sublist.refl _

/-! ## Each passage -/

/-- What is known of a passage, its tape, the processors it has visited and its place. -/
def At (cfg : PipelineConfig π) (route : List π) (tape : TapeKind) (visited : List π) : TapePlace π → Prop
  | .notStarted => visited = []
  | .queued p | .working p _ | .rejected p | .failed p =>
    (∀ q ∈ visited, cfg.isReporting q = false) ∧ ∃ pre post, route = pre ++ p :: post ∧
      stations cfg route tape = visited ++ untilReporting cfg.isReporting (onward cfg.getName tape post)
  | .reported => (∃ q ∈ visited, cfg.isReporting q = true) ∧ visited = stations cfg route tape
  | .ended => (∀ q ∈ visited, cfg.isReporting q = false) ∧ visited = stations cfg route tape
  | .stuck => False

/-- A passage is in the queue or in the hands of the thread where its place says, and nowhere else. -/
structure Passage (cfg : PipelineConfig π) (route : List π) (s : TapePipeline π) (n : Nat) : Prop where
  at_place : At cfg route (cfg.tape n) (s.visited n) (s.place n)
  started : s.place n = .notStarted ↔ s.started ≤ n
  queued : ∀ p, n ∈ (s.audioTapeQueue p).queue ↔ s.place n = .queued p
  working : ∀ p thread, s.call p thread = .working n ↔ s.place n = .working p thread

/-- The invariant of all runs. -/
structure Inv (cfg : PipelineConfig π) (route : List π) (s : TapePipeline π) : Prop where
  passage : ∀ n, Passage cfg route s n
  nodup : ∀ p, (s.audioTapeQueue p).queue.Nodup

/-- Nothing that concerns the passage has changed. -/
theorem Passage.transfer {s' : TapePipeline π} {n : Nat} (h : Passage cfg route s n)
    (hvisited : s'.visited n = s.visited n) (hplace : s'.place n = s.place n)
    (hstarted : s'.started ≤ n ↔ s.started ≤ n)
    (hqueue : ∀ p, n ∈ (s'.audioTapeQueue p).queue ↔ n ∈ (s.audioTapeQueue p).queue)
    (hcall : ∀ p thread, s'.call p thread = .working n ↔ s.call p thread = .working n) :
    Passage cfg route s' n where
  at_place := by rw [hvisited, hplace]; exact h.at_place
  started := by rw [hplace, hstarted]; exact h.started
  queued p := by rw [hplace, hqueue]; exact h.queued p
  working p thread := by rw [hplace, hcall]; exact h.working p thread

theorem inv_new (size : π → Int) : Inv cfg route (new size) where
  passage n := {
    at_place := rfl
    started := by simp [new]
    queued := by simp [new, ThreadSafeQueue.new]
    working := by simp [new] }
  nodup p := List.nodup_nil

/-- The invariant, but for a passage that is between two places. -/
structure Between (cfg : PipelineConfig π) (route : List π) (s : TapePipeline π) (n : Nat) : Prop where
  passage : ∀ m, m ≠ n → Passage cfg route s m
  nodup : ∀ p, (s.audioTapeQueue p).queue.Nodup
  started : n < s.started
  notQueued : ∀ p, n ∉ (s.audioTapeQueue p).queue
  notWorking : ∀ p thread, s.call p thread ≠ .working n

/-- The places that no queue and no thread knows of. -/
def isFinal : TapePlace π → Bool
  | .rejected _ | .failed _ | .reported | .ended => true
  | _ => false

variable {n : Nat}

/-- Nothing has changed but the visits of the passage. -/
theorem Between.transfer {s' : TapePipeline π} (h : Between cfg route s n)
    (hvisited : ∀ m, m ≠ n → s'.visited m = s.visited m) (hplace : s'.place = s.place)
    (hstarted : s'.started = s.started) (hcall : s'.call = s.call)
    (hqueue : ∀ p, (s'.audioTapeQueue p).queue = (s.audioTapeQueue p).queue) : Between cfg route s' n where
  passage m hm := (h.passage m hm).transfer (hvisited m hm) (by rw [hplace]) (by rw [hstarted])
    (fun p => by rw [hqueue]) fun _ _ => by rw [hcall]
  nodup p := by rw [hqueue]; exact h.nodup p
  started := by rw [hstarted]; exact h.started
  notQueued p := by rw [hqueue]; exact h.notQueued p
  notWorking := by rw [hcall]; exact h.notWorking

theorem Between.setPlace (h : Between cfg route s n) {c : TapePlace π} (hfinal : isFinal c = true)
    (hat : At cfg route (cfg.tape n) (s.visited n) c) :
    Inv cfg route { s with place := Function.update s.place n c } := by
  refine ⟨fun m => ?_, h.nodup⟩
  by_cases hm : m = n
  · subst hm
    refine ⟨?_, ?_, fun p => ?_, fun p thread => ?_⟩
    · simpa using hat
    · have := h.started
      simp only [Function.update_self]
      refine ⟨fun hp => ?_, fun hle => absurd hle (by omega)⟩
      simp [hp, isFinal] at hfinal
    · simp only [Function.update_self]
      refine ⟨fun hq => absurd hq (h.notQueued p), fun hp => ?_⟩
      simp [hp, isFinal] at hfinal
    · simp only [Function.update_self]
      refine ⟨fun hc => absurd hc (h.notWorking p thread), fun hp => ?_⟩
      simp [hp, isFinal] at hfinal
  · exact (h.passage m hm).transfer rfl (Function.update_of_ne hm ..) Iff.rfl (fun _ => Iff.rfl)
      fun _ _ => Iff.rfl

variable [DecidableEq π]

/-- The count of a semaphore does not matter here. -/
theorem update_queue {queue : π → ThreadSafeQueue Nat} {p : π} {q : ThreadSafeQueue Nat}
    (hq : q.queue = (queue p).queue) (k : π) : (Function.update queue p q k).queue = (queue k).queue := by
  by_cases hk : k = p
  · subst hk
    simp [hq]
  · simp [hk]

/-- The passage joins a queue. -/
theorem Between.enqueue (h : Between cfg route s n) {p : π} {q : ThreadSafeQueue Nat}
    (hq : q.queue = (s.audioTapeQueue p).queue ++ [n])
    (hat : At cfg route (cfg.tape n) (s.visited n) (.queued p)) :
    Inv cfg route { s with
      audioTapeQueue := Function.update s.audioTapeQueue p q
      place := Function.update s.place n (.queued p) } := by
  have hqueue (k : π) (m : Nat) : m ∈ (Function.update s.audioTapeQueue p q k).queue ↔
      m ∈ (s.audioTapeQueue k).queue ∨ k = p ∧ m = n := by
    by_cases hk : k = p
    · subst hk
      simp [hq]
    · simp [hk]
  refine ⟨fun m => ?_, fun k => ?_⟩
  · by_cases hm : m = n
    · subst hm
      refine ⟨by simpa using hat, ?_, fun k => ?_, fun k thread => ?_⟩
      · have := h.started
        simp only [Function.update_self, reduceCtorEq, false_iff]
        omega
      · simp [hqueue, h.notQueued k, eq_comm]
      · simp [h.notWorking k thread]
    · exact (h.passage m hm).transfer rfl (Function.update_of_ne hm ..) Iff.rfl
        (fun k => by simp [hqueue, hm]) fun _ _ => Iff.rfl
  · by_cases hk : k = p
    · subst hk
      simp only [Function.update_self, hq]
      exact (h.nodup k).append (List.nodup_singleton n) (by simpa using h.notQueued k)
    · simpa [hk] using h.nodup k

/-- The passage visits the next of its stations. -/
theorem Between.addAudioTape (h : Between cfg route s n) (pre post : List π) {p : π}
    (hnot : ∀ q ∈ s.visited n, cfg.isReporting q = false) (hroute : route = pre ++ p :: post)
    (hstations : stations cfg route (cfg.tape n) = s.visited n ++
      untilReporting cfg.isReporting (p :: onward cfg.getName (cfg.tape n) post)) :
    Inv cfg route (s.addAudioTape cfg p n) := by
  have hvisit : Between cfg route { s with visited := Function.update s.visited n (s.visited n ++ [p]) } n :=
    h.transfer (fun m hm => Function.update_of_ne hm ..) rfl rfl rfl fun _ => rfl
  rw [untilReporting] at hstations
  simp only [TapePipeline.addAudioTape]
  split
  · rename_i hr
    rw [if_pos hr] at hstations
    exact hvisit.setPlace rfl ⟨⟨p, by simp, hr⟩, by simp [hstations]⟩
  · rename_i hr
    rw [if_neg hr, List.append_cons] at hstations
    have hat : (∀ q ∈ s.visited n ++ [p], cfg.isReporting q = false) ∧ ∃ pre post, route = pre ++ p :: post ∧
        stations cfg route (cfg.tape n) =
          (s.visited n ++ [p]) ++ untilReporting cfg.isReporting (onward cfg.getName (cfg.tape n) post) :=
      ⟨by simpa [or_imp, forall_and] using ⟨hnot, by simpa using hr⟩, pre, post, hroute, hstations⟩
    split
    · rename_i hroom
      refine hvisit.enqueue ?_ ?_
      · simp [ThreadSafeQueue.enqueue, hroom]
      · dsimp only
        rwa [Function.update_self]
    · rename_i hroom
      have hrejected : Between cfg route { s with
          visited := Function.update s.visited n (s.visited n ++ [p])
          audioTapeQueue := Function.update s.audioTapeQueue p { (s.audioTapeQueue p).enqueue n with
            count := ((s.audioTapeQueue p).enqueue n).count + 1 } } n :=
        hvisit.transfer (fun _ _ => rfl) rfl rfl rfl fun k =>
          update_queue (by simp [ThreadSafeQueue.enqueue, hroom]) k
      refine hrejected.setPlace (c := .rejected p) rfl ?_
      dsimp only
      rwa [Function.update_self]

/-- The passage goes on from a part of the chain. -/
theorem Between.send (h : Between cfg route s n) (pre : List π) {post : List π}
    (hnot : ∀ q ∈ s.visited n, cfg.isReporting q = false) (hroute : route = pre ++ post)
    (hstations : stations cfg route (cfg.tape n) = s.visited n ++
      untilReporting cfg.isReporting (onward cfg.getName (cfg.tape n) post)) :
    Inv cfg route (s.send cfg n (some (onward cfg.getName (cfg.tape n) post).head?)) := by
  cases hon : onward cfg.getName (cfg.tape n) post with
  | nil =>
    rw [hon, untilReporting, List.append_nil] at hstations
    exact h.setPlace (c := .ended) rfl ⟨hnot, hstations.symm⟩
  | cons p rest =>
    obtain ⟨skipped, post', rfl, -, -, rfl⟩ := List.filter_eq_cons_iff.mp hon
    rw [hon] at hstations
    exact h.addAudioTape (pre ++ skipped) post' hnot (by rw [hroute, List.append_assoc]) hstations

/-! ## Every step -/

theorem Inv.run (h : Inv cfg route s) (hr : Routed cfg route) : Inv cfg route (s.step cfg .run) := by
  have hfresh := h.passage s.started
  have hplace : s.place s.started = .notStarted := hfresh.started.mpr (Nat.le_refl _)
  have hat := hfresh.at_place
  rw [hplace] at hat
  have hbetween : Between cfg route { s with started := s.started + 1 } s.started := {
    passage := fun m hm => (h.passage m).transfer rfl rfl
      ⟨fun hle => by simp only at hle; omega, fun hle => by simp only; omega⟩ (fun _ => Iff.rfl)
      fun _ _ => Iff.rfl
    nodup := h.nodup
    started := Nat.lt_succ_self _
    notQueued := fun p hq => by
      have := (hfresh.queued p).mp hq
      simp [hplace] at this
    notWorking := fun p thread hc => by
      have := (hfresh.working p thread).mp hc
      simp [hplace] at this }
  have hnil : s.visited s.started = [] := hat
  have hnot : ∀ q ∈ s.visited s.started, cfg.isReporting q = false := by simp [hnil]
  simp only [TapePipeline.step]
  cases hroute : route with
  | nil =>
    have hrun : cfg.registry.runProcessingChain cfg.getName cfg.calls (cfg.tape s.started) = some none := by
      simp [runProcessingChain, hr.first, hroute]
    rw [hrun, ← hroute]
    exact hbetween.setPlace (c := .ended) rfl ⟨hnot, by simp [hnil, hroute, stations, untilReporting]⟩
  | cons p post =>
    have hfirst : cfg.registry.firstTapeProcessor = some p := by rw [hr.first, hroute, List.head?_cons]
    rw [← hroute]
    cases he : (cfg.tape s.started).isExternal with
    | false =>
      have hrun : cfg.registry.runProcessingChain cfg.getName cfg.calls (cfg.tape s.started) =
          some (some p) := by
        simp [runProcessingChain, hfirst, he]
      rw [hrun]
      refine hbetween.addAudioTape [] post hnot hroute ?_
      rw [onward_of_not_external he]
      simp [stations, he, hnil, hroute]
    | true =>
      cases hb : compareNoCase (cfg.getName p) "BatchProcessing" with
      | false =>
        have hrun : cfg.registry.runProcessingChain cfg.getName cfg.calls (cfg.tape s.started) = some none := by
          simp [runProcessingChain, hfirst, he, hb]
        rw [hrun]
        exact hbetween.setPlace (c := .ended) rfl
          ⟨hnot, by simp [hnil, hroute, stations, untilReporting, he, hb]⟩
      | true =>
        have hcalls := hr.calls
        rw [hroute, List.length_cons] at hcalls
        have hrun : cfg.registry.runProcessingChain cfg.getName cfg.calls (cfg.tape s.started) =
            some (onward cfg.getName (cfg.tape s.started) post).head? := by
          simp only [runProcessingChain, hfirst, he, hb, Bool.true_eq_false, if_false, if_true]
          exact runNextProcessor_eq (hr.path p (by rw [hroute]; rfl)) cfg.calls [] hroute hcalls
        rw [hrun]
        refine hbetween.send [p] hnot hroute ?_
        simp [stations, he, hb, hroute, hnil]

theorem setCall_call (p : π) (thread : Nat) (c : ProcessorCall) (k : π) (th : Nat) :
    (s.setCall p thread c).call k th = if k = p ∧ th = thread then c else s.call k th := by
  by_cases hk : k = p
  · subst hk
    by_cases ht : th = thread <;> simp [setCall, ht]
  · simp [setCall, hk]

/-- A thread moves from one place to another, with the passage in neither. -/
theorem setCall_working_iff {p : π} {thread m : Nat} {c : ProcessorCall} (hold : s.call p thread ≠ .working m)
    (hnew : c ≠ .working m) (k : π) (th : Nat) :
    (s.setCall p thread c).call k th = .working m ↔ s.call k th = .working m := by
  rw [setCall_call]
  split
  · rename_i h
    simp [h.1, h.2, hold, hnew]
  · exact Iff.rfl

theorem Inv.acquire (h : Inv cfg route s) (p : π) (thread : Nat) :
    Inv cfg route (s.step cfg (.acquire p thread)) := by
  simp only [TapePipeline.step]
  split
  · rename_i hc
    have hqueue (k : π) : (Function.update s.audioTapeQueue p { s.audioTapeQueue p with
        count := (s.audioTapeQueue p).count - 1 } k).queue = (s.audioTapeQueue k).queue := by
      apply update_queue
      rfl
    refine ⟨fun m => ?_, fun k => ?_⟩
    · exact (h.passage m).transfer rfl rfl Iff.rfl (fun k => by rw [hqueue])
        (setCall_working_iff (by simp [hc.1]) (by simp))
    · rw [hqueue]
      exact h.nodup k
  · exact h

theorem Inv.pop (h : Inv cfg route s) (p : π) (thread : Nat) (isStopping : Bool) :
    Inv cfg route (s.step cfg (.pop p thread isStopping)) := by
  simp only [TapePipeline.step]
  split
  · rename_i hc _
    refine ⟨fun m => (h.passage m).transfer rfl rfl Iff.rfl (fun _ => Iff.rfl) ?_, h.nodup⟩
    exact setCall_working_iff (by simp [hc]) (by cases isStopping <;> simp)
  · rename_i q n hc hq
    obtain ⟨rest, hrest, hqueue⟩ : ∃ rest, (s.audioTapeQueue p).queue = n :: rest ∧ q.queue = rest := by
      unfold ThreadSafeQueue.dequeue at hq
      split at hq
      · simp at hq
      · rename_i element rest hrest
        obtain ⟨rfl, hn⟩ := Prod.mk.inj hq
        exact ⟨rest, by rw [hrest, Option.some.inj hn], rfl⟩
    have hplace : s.place n = .queued p := ((h.passage n).queued p).mp (by rw [hrest]; exact List.mem_cons_self)
    have hnd := List.nodup_cons.mp (hrest ▸ h.nodup p)
    have hmem (k : π) (m : Nat) : m ∈ (Function.update s.audioTapeQueue p q k).queue ↔
        m ∈ (s.audioTapeQueue k).queue ∧ m ≠ n := by
      by_cases hk : k = p
      · subst hk
        simp only [Function.update_self, hqueue, hrest, List.mem_cons]
        exact ⟨fun hm => ⟨Or.inr hm, fun he => hnd.1 (he ▸ hm)⟩, fun hm => hm.1.resolve_left hm.2⟩
      · rw [Function.update_of_ne hk]
        refine ⟨fun hm => ⟨hm, ?_⟩, And.left⟩
        rintro rfl
        have := ((h.passage m).queued k).mp hm
        exact hk (by simpa [hplace] using this.symm)
    refine ⟨fun m => ?_, fun k => ?_⟩
    · by_cases hm : m = n
      · subst hm
        have hat := (h.passage m).at_place
        have hstarted := (h.passage m).started
        rw [hplace] at hat hstarted
        refine ⟨?_, ?_, fun k => ?_, fun k th => ?_⟩
        · simp only [Function.update_self]
          exact hat
        · simpa [setCall] using hstarted
        · simp [hmem]
        · dsimp only
          rw [setCall_call, Function.update_self]
          split
          · rename_i hk
            simp [hk.1, hk.2]
          · rename_i hk
            have := (h.passage m).working k th
            simp only [hplace, reduceCtorEq, iff_false] at this
            simp only [this, TapePlace.working.injEq, false_iff]
            exact fun he => hk ⟨he.1.symm, he.2.symm⟩
      · refine (h.passage m).transfer rfl (Function.update_of_ne hm ..) Iff.rfl (fun k => by simp [hmem, hm]) ?_
        exact setCall_working_iff (by simp [hc]) (by simpa using Ne.symm hm)
    · by_cases hk : k = p
      · subst hk
        simpa [hqueue] using hnd.2
      · simpa [hk] using h.nodup k
  · exact h

theorem Inv.finish (h : Inv cfg route s) (hr : Routed cfg route) (p : π) (thread : Nat) (passOn : Bool) :
    Inv cfg route (s.step cfg (.finish p thread passOn)) := by
  simp only [TapePipeline.step]
  split
  · rename_i n hc
    have hplace : s.place n = .working p thread := ((h.passage n).working p thread).mp hc
    have hat := (h.passage n).at_place
    rw [hplace] at hat
    obtain ⟨hnot, pre, post, hroute, hstations⟩ := hat
    have hbetween : Between cfg route (s.setCall p thread .waiting) n := {
      passage := fun m hm => (h.passage m).transfer rfl rfl Iff.rfl (fun _ => Iff.rfl)
        (setCall_working_iff (by simpa [hc] using Ne.symm hm) (by simp))
      nodup := h.nodup
      started := by
        have := (h.passage n).started
        simp only [hplace, reduceCtorEq, false_iff, Nat.not_le] at this
        exact this
      notQueued := fun k hk => by
        have := ((h.passage n).queued k).mp hk
        simp [hplace] at this
      notWorking := fun k th => by
        rw [setCall_call]
        split
        · simp
        · rename_i hk
          intro hw
          have := ((h.passage n).working k th).mp hw
          rw [hplace, TapePlace.working.injEq] at this
          exact hk ⟨this.1.symm, this.2.symm⟩ }
    cases passOn with
    | false => exact hbetween.setPlace (c := .failed p) rfl ⟨hnot, pre, post, hroute, hstations⟩
    | true =>
      have hcalls : post.length < cfg.calls := by
        have := hr.calls
        rw [hroute, List.length_append, List.length_cons] at this
        omega
      obtain ⟨a, ha⟩ : ∃ a, route.head? = some a := by
        rw [hroute]
        cases pre <;> exact ⟨_, rfl⟩
      simp only [if_true]
      rw [runNextProcessor_eq (hr.path a ha) cfg.calls pre hroute hcalls]
      exact hbetween.send (pre ++ [p]) hnot (by simp [hroute]) hstations
  · exact h

theorem Inv.step (h : Inv cfg route s) (hr : Routed cfg route) (a : PipelineAction π) :
    Inv cfg route (s.step cfg a) := by
  cases a with
  | run => exact h.run hr
  | acquire p thread => exact h.acquire p thread
  | pop p thread isStopping => exact h.pop p thread isStopping
  | finish p thread passOn => exact h.finish hr p thread passOn

/-- A passage visits its stations in their order and each at most once; it is reported when it has come to a
processor that reports, and it leaves the chain only behind the last of its stations, where a queue is full or
where a processor does not pass it on. It is in one place: in the queue or in the hands of the thread that its
place says, and in no other. -/
structure Flows (cfg : PipelineConfig π) (route : List π) (s : TapePipeline π) (n : Nat) : Prop where
  inOrder : s.visited n <+: stations cfg route (cfg.tape n)
  once : (s.visited n).Nodup
  whole : s.place n = .ended ∨ s.place n = .reported → s.visited n = stations cfg route (cfg.tape n)
  reported : s.place n = .reported ↔ ∃ q ∈ s.visited n, cfg.isReporting q = true
  notStuck : s.place n ≠ .stuck
  queued : ∀ p, (s.audioTapeQueue p).queue.count n = if s.place n = .queued p then 1 else 0
  working : ∀ p thread, s.call p thread = .working n ↔ s.place n = .working p thread

theorem Inv.flows (h : Inv cfg route s) (hroute : route.Nodup) (n : Nat) : Flows cfg route s n := by
  have hat := (h.passage n).at_place
  have hpre : s.visited n <+: stations cfg route (cfg.tape n) := by
    cases hp : s.place n with
    | notStarted =>
      rw [hp] at hat
      rw [show s.visited n = [] from hat]
      exact List.nil_prefix
    | queued p | working p thread | rejected p | failed p =>
      rw [hp] at hat
      obtain ⟨-, -, post, -, hs⟩ := hat
      exact ⟨_, hs.symm⟩
    | reported | ended =>
      rw [hp] at hat
      rw [hat.2]
    | stuck =>
      rw [hp] at hat
      exact hat.elim
  refine ⟨hpre, hpre.sublist.nodup ((stations_sublist cfg route _).nodup hroute), ?_, ?_, ?_, fun p => ?_,
    (h.passage n).working⟩
  · rintro (hp | hp) <;> rw [hp] at hat <;> exact hat.2
  · cases hp : s.place n with
    | reported =>
      rw [hp] at hat
      simpa using hat.1
    | notStarted =>
      rw [hp] at hat
      simp [show s.visited n = [] from hat]
    | queued p | working p thread | rejected p | failed p | ended =>
      rw [hp] at hat
      simpa using hat.1
    | stuck => simp [hp, At] at hat
  · intro hp
    rw [hp] at hat
    exact hat
  · rw [(h.nodup p).count]
    simp only [(h.passage n).queued p]

/-- The chain that is configured has a route, unless its last processor is named before. -/
theorem exists_routed (getName : π → String) (isReporting : π → Bool) (tape : Nat → TapeKind)
    (tapeProcessors : List π) (names : List String) {processors : List π}
    (hprocessors : named getName { tapeProcessors } names = processors)
    (hlast : ∀ z ∈ processors.getLast?, z ∉ processors.dropLast) :
    ∃ route : List π, route.Sublist processors ∧ route.Nodup ∧ (processors.Nodup → route = processors) ∧
      Routed (.configured getName isReporting tape tapeProcessors names) route := by
  have hchain := createProcessingChain_chain getName tapeProcessors names
  have hlength : processors.length ≤ names.length := hprocessors ▸ List.length_filterMap_le _ _
  rw [← named, hprocessors] at hchain
  cases hp : processors with
  | nil =>
    refine ⟨[], List.Sublist.refl _, List.nodup_nil, fun _ => rfl, ?_, by simp, Nat.zero_le _⟩
    rw [hp] at hchain
    exact hchain.first
  | cons x rest =>
    obtain ⟨pre, z, hz⟩ : ∃ pre z, processors = pre ++ [z] :=
      ⟨_, _, (List.dropLast_concat_getLast (by rw [hp]; exact List.cons_ne_nil x rest)).symm⟩
    have hx : processors.head? = some x := by rw [hp]; rfl
    have hnot : z ∉ pre := by simpa [hz] using hlast z (by simp [hz])
    obtain ⟨route, hpath⟩ := (hchain.ends x pre z hx hz).mpr hnot
    obtain ⟨hnodup, hsub⟩ := hchain.route x route hx hpath
    rw [← hp]
    refine ⟨route, hsub, hnodup, fun hnd => hpath.unique (hchain.whole x hx hnd), ?_, fun p hroute => ?_, ?_⟩
    · exact (hchain.first.trans hx).trans hpath.head.symm
    · obtain rfl : x = p := Option.some.inj (hpath.head.symm.trans hroute)
      exact hpath
    · exact Nat.le_trans hsub.length_le hlength

/-- **Every tape goes through the chain in its order, each processor at most once**, whatever the threads do, if
the last processor of the configuration is not named before. -/
theorem flows_run (getName : π → String) (isReporting : π → Bool) (tape : Nat → TapeKind) (size : π → Int)
    (tapeProcessors : List π) (names : List String) (processors : List π)
    (hprocessors : named getName { tapeProcessors } names = processors)
    (hlast : ∀ z ∈ processors.getLast?, z ∉ processors.dropLast) :
    ∃ route : List π, route.Sublist processors ∧ (processors.Nodup → route = processors) ∧
      ∀ (l : List (PipelineAction π)) (n : Nat),
        Flows (.configured getName isReporting tape tapeProcessors names) route
          (l.foldl (step (.configured getName isReporting tape tapeProcessors names)) (new size)) n := by
  obtain ⟨route, hsub, hnodup, hwhole, hrouted⟩ :=
    exists_routed getName isReporting tape tapeProcessors names hprocessors hlast
  exact ⟨route, hsub, hwhole, fun l n =>
    (Run.inv_foldl (fun _ a h => h.step hrouted a) l (inv_new size)).flows hnodup n⟩

theorem toList_toLower (s : String) : s.toLower.toList = s.toList.map Char.toLower := String.toList_map

theorem compareNoCase_eq_false {s t : String} (h : s.toLower.toList ≠ t.toLower.toList) :
    compareNoCase s t = false := by
  simp only [compareNoCase, beq_eq_false_iff_ne, ne_eq]
  exact fun he => h (congrArg String.toList he)

/-- The processors of a standard configuration. -/
theorem flows_run_batch_reporting : ∃ route : List (Fin 2), route.Sublist [0, 1] ∧
    (([0, 1] : List (Fin 2)).Nodup → route = [0, 1]) ∧ ∀ (l : List (PipelineAction (Fin 2))) (n : Nat),
      Flows (.configured (fun p => if p = 0 then "BatchProcessing" else "Reporting") (· = 1)
          (fun _ => ⟨false, .unKnownType⟩) [0, 1] ["BatchProcessing", "Reporting"]) route
        (l.foldl (step (.configured (fun p => if p = 0 then "BatchProcessing" else "Reporting") (· = 1)
          (fun _ => ⟨false, .unKnownType⟩) [0, 1] ["BatchProcessing", "Reporting"])) (new fun _ => 100)) n := by
  have hne : compareNoCase "BatchProcessing" "Reporting" = false :=
    compareNoCase_eq_false (by simp [toList_toLower])
  have hself (s : String) : compareNoCase s s = true := by simp [compareNoCase]
  exact flows_run (fun p : Fin 2 => if p = 0 then "BatchProcessing" else "Reporting") (· = 1)
    (fun _ => ⟨false, .unKnownType⟩) (fun _ => 100) [0, 1] ["BatchProcessing", "Reporting"] [0, 1]
    (by simp [named, getNewTapeProcessor, hne, hself]) (by decide)

end TapePipeline

end Oreka
