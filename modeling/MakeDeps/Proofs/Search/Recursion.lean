import MakeDeps.Proofs.Search.Traversal

/-!
# Exploring by recursion

`Visits` is the recursive search: visiting a node opens it, visits those of its successors that
have not been seen, in order, and then finishes the node. `Searches` starts it from each root that
has not been finished. A failure ends both at once.

* `Visits.work_eq`: a stack of frames holds the pending work of all recursive calls.
* `Visits.explore_eq`: so `explore` ends as the recursion does.
* `exists_visits`: within a finite set of nodes the recursion ends.
* `searches_iff_visits`: passing over finished roots is passing over seen ones.
-/

namespace MakeDeps.Search

variable {α β ε : Type}

/-- What a recursive search remembers: the nodes that it has seen, those that it has finished, each
with its successors, and what it has noted about the nodes it opened. -/
structure Memory (α β : Type) where
  seen : List α
  finished : List (α × List α)
  notes : β

namespace Memory

/-- The memory at the start of a search. -/
def start (notes : β) : Memory α β := ⟨[], [], notes⟩

/-- The nodes that are finished, in the order in which they were. -/
def keys (m : Memory α β) : List α :=
  m.finished.map Prod.fst

/-- Opens a node: it is seen, and something is noted about it. -/
def enter (note : β → α → β) (m : Memory α β) (a : α) : Memory α β :=
  { m with seen := m.seen ++ [a], notes := note m.notes a }

/-- A node that is entered is the last one seen. -/
@[simp] lemma seen_enter (note : β → α → β) (m : Memory α β) (a : α) :
    (m.enter note a).seen = m.seen ++ [a] := rfl

/-- The nodes seen after one is entered are that one and those before. -/
lemma mem_seen_enter {note : β → α → β} {m : Memory α β} {a b : α} :
    b ∈ (m.enter note a).seen ↔ b ∈ m.seen ∨ b = a := by
  simp

/-- Entering a node finishes none. -/
@[simp] lemma keys_enter (note : β → α → β) (m : Memory α β) (a : α) :
    (m.enter note a).keys = m.keys := rfl

variable [DecidableEq α]

/-- Finishes a node; the first time counts. -/
def finish (m : Memory α β) (a : α) (successors : List α) : Memory α β :=
  if a ∈ m.keys then m else { m with finished := m.finished ++ [(a, successors)] }

/-- Finishing a node shows no other. -/
@[simp] lemma seen_finish (m : Memory α β) (a : α) (successors : List α) :
    (m.finish a successors).seen = m.seen := by
  unfold finish
  split <;> rfl

/-- Finishing a node notes nothing. -/
@[simp] lemma notes_finish (m : Memory α β) (a : α) (successors : List α) :
    (m.finish a successors).notes = m.notes := by
  unfold finish
  split <;> rfl

/-- A node that is finished for the first time is put at the end. -/
lemma finished_finish {m : Memory α β} {a : α} (h : a ∉ m.keys) (successors : List α) :
    (m.finish a successors).finished = m.finished ++ [(a, successors)] := by
  rw [finish, if_neg h]

/-- The nodes that are finished after one is are that one and those before. -/
@[simp] lemma mem_keys_finish {m : Memory α β} {a b : α} {successors : List α} :
    b ∈ (m.finish a successors).keys ↔ b ∈ m.keys ∨ b = a := by
  unfold finish
  split
  · constructor
    · exact .inl
    · rintro (h | rfl) <;> assumption
  · simp [keys]

/-- What is recorded after a node is finished was so before, or is of that node. -/
lemma mem_finished_finish {m : Memory α β} {a : α} {successors : List α} {x : α × List α}
    (h : x ∈ (m.finish a successors).finished) : x ∈ m.finished ∨ x = (a, successors) := by
  unfold finish at h
  split at h
  · exact .inl h
  · simpa using h

/-- What is finished has been seen, and is finished once. -/
structure Coherent (m : Memory α β) : Prop where
  seen : ∀ a ∈ m.keys, a ∈ m.seen
  nodup : m.keys.Nodup

omit [DecidableEq α] in
/-- The memory at the start is coherent. -/
lemma coherent_start (notes : β) : (start notes : Memory α β).Coherent :=
  ⟨by simp [start, keys], by simp [start, keys]⟩

omit [DecidableEq α] in
/-- Entering a node keeps the memory coherent. -/
lemma Coherent.enter {m : Memory α β} (h : m.Coherent) (note : β → α → β) (a : α) :
    (m.enter note a).Coherent :=
  ⟨fun b hb => mem_seen_enter.2 (.inl (h.seen b hb)), h.nodup⟩

/-- Finishing a node that has been seen keeps the memory coherent. -/
lemma Coherent.finish {m : Memory α β} (h : m.Coherent) {a : α} (ha : a ∈ m.seen)
    (successors : List α) : (m.finish a successors).Coherent := by
  refine ⟨?_, ?_⟩
  · intro b hb
    rw [seen_finish]
    rcases mem_keys_finish.1 hb with hb | rfl
    · exact h.seen b hb
    · exact ha
  · by_cases hkey : a ∈ m.keys
    · rw [Memory.finish, if_pos hkey]
      exact h.nodup
    · rw [keys, finished_finish hkey, List.map_append, List.map_singleton]
      refine List.nodup_append.2 ⟨h.nodup, by simp, ?_⟩
      rintro b hb c hc rfl
      rw [List.mem_singleton] at hc
      rw [hc] at hb
      exact hkey hb

/-- The same search without notes, as long as it stays within a set of nodes. -/
def progress (domain : List α) (m : Memory α β) : Progress α :=
  ⟨unseen domain m.seen, m.seen, m.finished⟩

/-- A search makes no progress before it starts. -/
lemma progress_start (domain : List α) (notes : β) :
    (start notes).progress domain = Progress.start domain := by
  simp [progress, start, Progress.start]

/-- Entering a node marks it as opened. -/
lemma progress_enter (domain : List α) (m : Memory α β) (note : β → α → β) (a : α) :
    (m.progress domain).markOpened a = (m.enter note a).progress domain := by
  simp [progress, Progress.markOpened, enter, without_unseen]

/-- Finishing a node marks it as finished. -/
lemma progress_finish (domain : List α) {m : Memory α β} {a : α} (h : a ∉ m.keys)
    (successors : List α) :
    (m.progress domain).markFinished a successors = (m.finish a successors).progress domain := by
  simp [progress, Progress.markFinished, finished_finish h]

/-- The fresh nodes are those of the domain that have not been seen. -/
lemma mem_fresh_progress {domain : List α} {m : Memory α β} {a : α} (ha : a ∈ domain) :
    a ∈ (m.progress domain).fresh ↔ a ∉ m.seen := by
  simp [progress, ha]

end Memory

section
variable [DecidableEq α] (scan : α → Except ε (List α)) (note : β → α → β)

/-- Visiting `nodes` from left to right leads from one memory to another, and ends with a failure
or without. -/
inductive Visits : Memory α β → (nodes : List α) → Memory α β → Option ε → Prop where
  | nil {m} : Visits m [] m none
  | skip {m n a nodes e} : a ∈ m.seen → Visits m nodes n e → Visits m (a :: nodes) n e
  | fail {m a nodes e} :
    a ∉ m.seen → scan a = .error e → Visits m (a :: nodes) (m.enter note a) (some e)
  | stop {m n a nodes found e} :
    a ∉ m.seen → scan a = .ok found →
    Visits (m.enter note a) found n (some e) →
    Visits m (a :: nodes) n (some e)
  | visit {m n q a nodes found e} :
    a ∉ m.seen → scan a = .ok found →
    Visits (m.enter note a) found n none →
    Visits (n.finish a found) nodes q e →
    Visits m (a :: nodes) q e

/-- Searching from `roots` leads from one memory to another, and ends with a failure or without. -/
inductive Searches : Memory α β → (roots : List α) → Memory α β → Option ε → Prop where
  | nil {m} : Searches m [] m none
  | skip {m n a roots e} : a ∈ m.keys → Searches m roots n e → Searches m (a :: roots) n e
  | stop {m n a roots e} :
    a ∉ m.keys → Visits scan note m [a] n (some e) → Searches m (a :: roots) n (some e)
  | visit {m n q a roots e} :
    a ∉ m.keys → Visits scan note m [a] n none → Searches n roots q e →
    Searches m (a :: roots) q e

/-- The successors of a node; none if there is no telling. -/
def successors (a : α) : List α :=
  match scan a with
  | .ok found => found
  | .error _ => []

end

section
variable {scan : α → Except ε (List α)}

/-- What is left to do once the pending nodes of a frame have been visited: after a failure nothing,
otherwise the frame is finished, and the frames below it are next. -/
def resume [DecidableEq α] (scan : α → Except ε (List α)) (p : Progress α) (frame : α)
    (all : List α) (stack : List (Frame α)) : Option ε → Result α ε
  | none => work scan (p.markFinished frame all) stack
  | some failure => ⟨p, some failure⟩

/-- The successors of a node are what the scan finds. -/
lemma successors_of_ok {a : α} {found : List α} (h : scan a = .ok found) :
    successors scan a = found := by
  simp [successors, h]

end

section
variable [DecidableEq α] {scan : α → Except ε (List α)} {note : β → α → β}
  {m n q : Memory α β} {nodes roots : List α} {e : Option ε}

namespace Visits

/-- Nothing that was seen is forgotten, and the notes are made in the order of seeing. -/
lemma seen_append (v : Visits scan note m nodes n e) :
    ∃ added, n.seen = m.seen ++ added ∧ n.notes = added.foldl note m.notes := by
  induction v with
  | nil => exact ⟨[], by simp⟩
  | skip _ _ ih => exact ih
  | @fail m a => exact ⟨[a], by simp [Memory.enter]⟩
  | @stop m n a _ _ _ _ _ _ ih =>
    obtain ⟨added, hseen, hnotes⟩ := ih
    exact ⟨a :: added, by simpa using hseen, hnotes⟩
  | @visit m n q a _ _ _ _ _ _ _ ihBelow ihRest =>
    obtain ⟨below, hseen, hnotes⟩ := ihBelow
    obtain ⟨after, hseen', hnotes'⟩ := ihRest
    refine ⟨a :: below ++ after, ?_, ?_⟩
    · rw [hseen', Memory.seen_finish, hseen]
      simp
    · rw [hnotes', Memory.notes_finish, hnotes, List.foldl_append]
      rfl

/-- A visit keeps what has been seen. -/
lemma mem_seen_of_mem (v : Visits scan note m nodes n e) {a : α} (h : a ∈ m.seen) :
    a ∈ n.seen := by
  obtain ⟨added, hseen, -⟩ := v.seen_append
  rw [hseen]
  exact List.mem_append_left _ h

/-- A visit after a node is entered has seen it. -/
lemma mem_seen_of_enter {a : α} (v : Visits scan note (m.enter note a) nodes n e) : a ∈ n.seen :=
  v.mem_seen_of_mem (Memory.mem_seen_enter.2 (.inr rfl))

/-- A visit after a node is finished has seen what was seen before. -/
lemma mem_seen_of_finish {a b : α} {found : List α}
    (v : Visits scan note (m.finish a found) nodes n e) (h : b ∈ m.seen) : b ∈ n.seen :=
  v.mem_seen_of_mem (by rwa [Memory.seen_finish])

/-- What is finished on the way is seen on the way. -/
lemma keys_new (v : Visits scan note m nodes n e) : ∀ a ∈ n.keys, a ∈ m.keys ∨ a ∉ m.seen := by
  induction v with
  | nil => exact fun _ h => .inl h
  | skip _ _ ih => exact ih
  | fail _ _ => exact fun _ h => .inl h
  | stop _ _ _ ih =>
    intro b hb
    refine (ih b hb).imp_right fun hnot hseen => hnot ?_
    exact List.mem_append_left _ hseen
  | @visit m n q a _ _ _ hnot _ vBelow _ ihBelow ihRest =>
    -- only `a` itself and what is below it can be new
    intro b hb
    rcases ihRest b hb with hb | hb
    · rcases Memory.mem_keys_finish.1 hb with hb | rfl
      · refine (ihBelow b hb).imp_right fun hnew hseen => hnew ?_
        exact List.mem_append_left _ hseen
      · exact .inr hnot
    · refine .inr fun hseen => hb ?_
      rw [Memory.seen_finish]
      exact vBelow.mem_seen_of_mem (List.mem_append_left _ hseen)

/-- A visit after a node is entered does not finish it. -/
lemma not_mem_keys {a : α} (v : Visits scan note (m.enter note a) nodes n e)
    (h : a ∉ m.keys) : a ∉ n.keys := by
  intro hkey
  rcases v.keys_new a hkey with hkey | hnew
  · exact h hkey
  · exact hnew (by simp)

/-- A visit keeps the memory coherent. -/
lemma coherent (v : Visits scan note m nodes n e) (h : m.Coherent) : n.Coherent := by
  induction v with
  | nil => exact h
  | skip _ _ ih => exact ih h
  | fail _ _ => exact h.enter _ _
  | stop _ _ _ ih => exact ih (h.enter _ _)
  | visit _ _ vBelow _ ihBelow ihRest =>
    exact ihRest ((ihBelow (h.enter _ _)).finish vBelow.mem_seen_of_enter _)

/-- A visit keeps what is finished. -/
lemma mem_keys_of_mem (v : Visits scan note m nodes n e) {a : α} (h : a ∈ m.keys) :
    a ∈ n.keys := by
  induction v with
  | nil => exact h
  | skip _ _ ih => exact ih h
  | fail _ _ => exact h
  | stop _ _ _ ih => exact ih h
  | visit _ _ _ _ ihBelow ihRest => exact ihRest (Memory.mem_keys_finish.2 (.inl (ihBelow h)))

/-- What is finished has been scanned, unless it was finished before. -/
lemma scan_of_finished (v : Visits scan note m nodes n e) :
    ∀ x ∈ n.finished, x ∈ m.finished ∨ scan x.1 = .ok x.2 := by
  induction v with
  | nil => exact fun _ h => .inl h
  | skip _ _ ih => exact ih
  | fail _ _ => exact fun _ h => .inl h
  | stop _ _ _ ih => exact ih
  | visit _ hscan _ _ ihBelow ihRest =>
    intro x hx
    rcases ihRest x hx with hx | hx
    · rcases Memory.mem_finished_finish hx with hx | rfl
      · exact ihBelow x hx
      · exact .inr hscan
    · exact .inr hx

/-- What is seen can be reached from the nodes that are visited, unless it was seen before. -/
lemma reachable (v : Visits scan note m nodes n e) :
    ∀ b ∈ n.seen, b ∈ m.seen ∨ ∃ a ∈ nodes, Reaches (successors scan) a b := by
  -- what lies below the successors of a node lies below the node
  have below {a : α} {found nodes : List α} {b : α} (hscan : scan a = .ok found)
      (h : ∃ c ∈ found, Reaches (successors scan) c b) :
      ∃ c ∈ a :: nodes, Reaches (successors scan) c b := by
    obtain ⟨c, hc, path⟩ := h
    refine ⟨a, List.mem_cons_self, path.head ?_⟩
    rwa [Edge, successors_of_ok hscan]
  have here {a : α} {nodes : List α} : ∃ c ∈ a :: nodes, Reaches (successors scan) c a :=
    ⟨a, List.mem_cons_self, .refl⟩
  have further {a b : α} {nodes : List α} (h : ∃ c ∈ nodes, Reaches (successors scan) c b) :
      ∃ c ∈ a :: nodes, Reaches (successors scan) c b := by
    obtain ⟨c, hc, path⟩ := h
    exact ⟨c, List.mem_cons_of_mem _ hc, path⟩
  induction v with
  | nil => exact fun _ h => .inl h
  | skip _ _ ih => exact fun b hb => (ih b hb).imp_right further
  | fail _ _ =>
    intro b hb
    rcases Memory.mem_seen_enter.1 hb with hb | rfl
    · exact .inl hb
    · exact .inr here
  | stop _ hscan _ ih =>
    intro b hb
    rcases ih b hb with hb | hb
    · rcases Memory.mem_seen_enter.1 hb with hb | rfl
      · exact .inl hb
      · exact .inr here
    · exact .inr (below hscan hb)
  | visit _ hscan _ _ ihBelow ihRest =>
    intro b hb
    rcases ihRest b hb with hb | hb
    · rw [Memory.seen_finish] at hb
      rcases ihBelow b hb with hb | hb
      · rcases Memory.mem_seen_enter.1 hb with hb | rfl
        · exact .inl hb
        · exact .inr here
      · exact .inr (below hscan hb)
    · exact .inr (further hb)

/-- What is seen is one of the nodes that are visited or a successor of something seen, unless it
was seen before. -/
lemma exists_edge_of_seen (v : Visits scan note m nodes n e) : ∀ b ∈ n.seen,
    b ∈ m.seen ∨ b ∈ nodes ∨ ∃ a ∈ n.seen, Edge (successors scan) a b := by
  induction v with
  | nil => exact fun _ h => .inl h
  | skip _ _ ih =>
    intro b hb
    exact (ih b hb).imp_right fun h => h.imp_left (List.mem_cons_of_mem _)
  | fail _ _ =>
    intro b hb
    rcases Memory.mem_seen_enter.1 hb with hb | rfl
    · exact .inl hb
    · exact .inr (.inl List.mem_cons_self)
  | @stop m n a _ found _ _ hscan v ih =>
    intro b hb
    rcases ih b hb with hb | hb | hb
    · rcases Memory.mem_seen_enter.1 hb with hb | rfl
      · exact .inl hb
      · exact .inr (.inl List.mem_cons_self)
    · exact .inr (.inr ⟨a, v.mem_seen_of_enter, by rwa [Edge, successors_of_ok hscan]⟩)
    · exact .inr (.inr hb)
  | @visit m n q a _ found _ _ hscan vBelow vRest ihBelow ihRest =>
    intro b hb
    have ha : a ∈ q.seen := vRest.mem_seen_of_finish vBelow.mem_seen_of_enter
    rcases ihRest b hb with hb | hb | hb
    · rw [Memory.seen_finish] at hb
      rcases ihBelow b hb with hb | hb | ⟨c, hc, hedge⟩
      · rcases Memory.mem_seen_enter.1 hb with hb | rfl
        · exact .inl hb
        · exact .inr (.inl List.mem_cons_self)
      · exact .inr (.inr ⟨a, ha, by rwa [Edge, successors_of_ok hscan]⟩)
      · exact .inr (.inr ⟨c, vRest.mem_seen_of_finish hc, hedge⟩)
    · exact .inr (.inl (List.mem_cons_of_mem _ hb))
    · exact .inr (.inr hb)

/-- A visit depends on nothing but what the nodes that it sees say. -/
lemma congr {scan' : α → Except ε (List α)} {note' : β → α → β} (v : Visits scan note m nodes n e)
    (hscan : ∀ a ∈ n.seen, scan' a = scan a) (hnote : ∀ a ∈ n.seen, ∀ b, note' b a = note b a) :
    Visits scan' note' m nodes n e := by
  have henter {m : Memory α β} {a : α} (ha : a ∈ n.seen) : m.enter note' a = m.enter note a := by
    rw [Memory.enter, Memory.enter, hnote a ha]
  induction v with
  | nil => exact .nil
  | skip hmem _ ih => exact .skip hmem (ih hscan hnote henter)
  | @fail m a _ _ hnot hfail =>
    have ha : a ∈ (m.enter note a).seen := Memory.mem_seen_enter.2 (.inr rfl)
    rw [← henter ha]
    exact .fail hnot ((hscan a ha).trans hfail)
  | @stop m n a _ _ _ hnot hfound v ih =>
    have ha : a ∈ n.seen := v.mem_seen_of_enter
    refine .stop hnot ((hscan a ha).trans hfound) ?_
    rw [henter ha]
    exact ih hscan hnote henter
  | @visit m n q a _ _ _ hnot hfound vBelow vRest ihBelow ihRest =>
    have hkept : ∀ c ∈ n.seen, c ∈ q.seen := fun c hc => vRest.mem_seen_of_finish hc
    have ha : a ∈ q.seen := hkept a vBelow.mem_seen_of_enter
    refine .visit hnot ((hscan a ha).trans hfound) ?_ (ihRest hscan hnote henter)
    rw [henter ha]
    exact ihBelow (fun c hc => hscan c (hkept c hc)) (fun c hc => hnote c (hkept c hc))
      fun hc => henter (hkept _ hc)

/-- A visit without a failure leaves nothing behind: the nodes to visit are seen, what is seen is
finished, and the successors of what is finished are seen. -/
lemma settled (v : Visits scan note m nodes n e) (he : e = none) :
    (∀ a ∈ nodes, a ∈ n.seen) ∧ (∀ a ∈ n.seen, a ∈ m.seen ∨ a ∈ n.keys) ∧
    ∀ x ∈ n.finished, x ∈ m.finished ∨ ∀ b ∈ x.2, b ∈ n.seen := by
  induction v with
  | nil => exact ⟨nofun, fun _ h => .inl h, fun _ h => .inl h⟩
  | skip hmem v ih =>
    obtain ⟨hnodes, hkeys, hclosed⟩ := ih he
    refine ⟨?_, hkeys, hclosed⟩
    intro b hb
    rcases List.mem_cons.1 hb with rfl | hb
    · exact v.mem_seen_of_mem hmem
    · exact hnodes b hb
  | fail _ _ => cases he
  | stop _ _ _ _ => cases he
  | @visit m n q a nodes found e _ _ vBelow vRest ihBelow ihRest =>
    obtain ⟨hfound, hkeys, hclosed⟩ := ihBelow rfl
    obtain ⟨hnodes, hkeys', hclosed'⟩ := ihRest he
    have later {b : α} (hb : b ∈ n.seen) : b ∈ q.seen := vRest.mem_seen_of_finish hb
    refine ⟨?_, ?_, ?_⟩
    · intro b hb
      rcases List.mem_cons.1 hb with rfl | hb
      · exact later vBelow.mem_seen_of_enter
      · exact hnodes b hb
    · -- what is seen below `a` is finished there, and `a` itself right after that
      intro b hb
      rcases hkeys' b hb with hb | hb
      · rw [Memory.seen_finish] at hb
        rcases hkeys b hb with hb | hb
        · refine (Memory.mem_seen_enter.1 hb).imp_right ?_
          rintro rfl
          exact vRest.mem_keys_of_mem (Memory.mem_keys_finish.2 (.inr rfl))
        · exact .inr (vRest.mem_keys_of_mem (Memory.mem_keys_finish.2 (.inl hb)))
      · exact .inr hb
    · intro x hx
      rcases hclosed' x hx with hx | hx
      · rcases Memory.mem_finished_finish hx with hx | rfl
        · exact (hclosed x hx).imp_right fun h b hb => later (h b hb)
        · exact .inr fun b hb => later (hfound b hb)
      · exact .inr hx

/-- If whatever had been seen was finished, this is so again after a visit without a failure. -/
lemma finished_of_seen (v : Visits scan note m nodes n none) (hs : ∀ a ∈ m.seen, a ∈ m.keys) :
    ∀ a ∈ n.seen, a ∈ n.keys := by
  intro a ha
  rcases (v.settled rfl).2.1 a ha with hseen | hkey
  · exact v.mem_keys_of_mem (hs a hseen)
  · exact hkey

/-- The stack of frames holds the pending work of all recursive calls: what is pending in the top
frame is worked off as by a visit. -/
lemma work_eq (v : Visits scan note m nodes n e) {domain : List α}
    (hc : Closed (successors scan) domain) (hn : ∀ a ∈ nodes, a ∈ domain) (hm : m.Coherent)
    (b : α) (all : List α) (stack : List (Frame α)) :
    work scan (m.progress domain) (⟨b, all, nodes⟩ :: stack) =
      resume scan (n.progress domain) b all stack e := by
  induction v generalizing b all stack with
  | nil => rw [work, resume]
  | @skip m n a nodes e hmem v ih =>
    have ha : a ∈ domain := hn a List.mem_cons_self
    rw [work, if_neg (by simp [Memory.mem_fresh_progress ha, hmem])]
    exact ih (fun c h => hn c (List.mem_cons_of_mem _ h)) hm b all stack
  | @fail m a nodes e hnot hscan =>
    have ha : a ∈ domain := hn a List.mem_cons_self
    rw [work, if_pos ((Memory.mem_fresh_progress ha).2 hnot), hscan,
      Memory.progress_enter domain m note, resume]
  | @stop m n a nodes found e hnot hscan v ih =>
    have ha : a ∈ domain := hn a List.mem_cons_self
    have hfound : ∀ c ∈ found, c ∈ domain := successors_of_ok hscan ▸ hc a ha
    rw [work, if_pos ((Memory.mem_fresh_progress ha).2 hnot), hscan,
      Memory.progress_enter domain m note]
    exact ih hfound (hm.enter _ _) a found _
  | @visit m n q a nodes found e hnot hscan vBelow vRest ihBelow ihRest =>
    have ha : a ∈ domain := hn a List.mem_cons_self
    have hfound : ∀ c ∈ found, c ∈ domain := successors_of_ok hscan ▸ hc a ha
    have hkey : a ∉ n.keys := vBelow.not_mem_keys fun h => hnot (hm.seen a h)
    have hseen : a ∈ n.seen := vBelow.mem_seen_of_enter
    rw [work, if_pos ((Memory.mem_fresh_progress ha).2 hnot), hscan,
      Memory.progress_enter domain m note]
    dsimp only
    -- the new frame is worked off first; then it is on top without anything pending
    rw [ihBelow hfound (hm.enter _ _) a found, resume, Memory.progress_finish domain hkey]
    exact ihRest (fun c h => hn c (List.mem_cons_of_mem _ h))
      ((vBelow.coherent (hm.enter _ _)).finish hseen found) b all stack

/-- `explore` ends as a visit of all roots does. -/
lemma explore_eq (v : Visits scan note m roots n e) {domain : List α}
    (hc : Closed (successors scan) domain) (hn : ∀ a ∈ roots, a ∈ domain) (hm : m.Coherent) :
    explore scan (m.progress domain) roots = ⟨n.progress domain, e⟩ := by
  induction v with
  | nil => rw [explore]
  | @skip m n a nodes e hmem v ih =>
    have ha : a ∈ domain := hn a List.mem_cons_self
    rw [explore, if_neg (by simp [Memory.mem_fresh_progress ha, hmem])]
    exact ih (fun c h => hn c (List.mem_cons_of_mem _ h)) hm
  | @fail m a nodes e hnot hscan =>
    have ha : a ∈ domain := hn a List.mem_cons_self
    rw [explore, if_pos ((Memory.mem_fresh_progress ha).2 hnot), hscan,
      Memory.progress_enter domain m note]
  | @stop m n a nodes found e hnot hscan v _ =>
    have ha : a ∈ domain := hn a List.mem_cons_self
    have hfound : ∀ c ∈ found, c ∈ domain := successors_of_ok hscan ▸ hc a ha
    rw [explore, if_pos ((Memory.mem_fresh_progress ha).2 hnot), hscan,
      Memory.progress_enter domain m note]
    dsimp only
    rw [v.work_eq hc hfound (hm.enter _ _), resume]
  | @visit m n q a nodes found e hnot hscan vBelow vRest _ ihRest =>
    have ha : a ∈ domain := hn a List.mem_cons_self
    have hfound : ∀ c ∈ found, c ∈ domain := successors_of_ok hscan ▸ hc a ha
    -- a cycle back to the root does not finish it: the root is seen from the start
    have hkey : a ∉ n.keys := vBelow.not_mem_keys fun h => hnot (hm.seen a h)
    have hseen : a ∈ n.seen := vBelow.mem_seen_of_enter
    rw [explore, if_pos ((Memory.mem_fresh_progress ha).2 hnot), hscan,
      Memory.progress_enter domain m note]
    dsimp only
    rw [vBelow.work_eq hc hfound (hm.enter _ _), resume, work, Memory.progress_finish domain hkey]
    exact ihRest (fun c h => hn c (List.mem_cons_of_mem _ h))
      ((vBelow.coherent (hm.enter _ _)).finish hseen found)

end Visits

/-- Within a finite set of nodes the recursion comes to an end. -/
lemma exists_visits {domain : List α} (hc : Closed (successors scan) domain) :
    ∀ (m : Memory α β) (nodes : List α), (∀ a ∈ nodes, a ∈ domain) →
      ∃ n e, Visits scan note m nodes n e
  | m, [], _ => ⟨m, none, .nil⟩
  | m, a :: nodes, hn => by
    have ha : a ∈ domain := hn a List.mem_cons_self
    have hnodes : ∀ b ∈ nodes, b ∈ domain := fun b hb => hn b (List.mem_cons_of_mem _ hb)
    by_cases hmem : a ∈ m.seen
    · obtain ⟨n, e, v⟩ := exists_visits hc m nodes hnodes
      exact ⟨n, e, .skip hmem v⟩
    · cases hscan : scan a with
      | error failure => exact ⟨_, _, .fail hmem hscan⟩
      | ok found =>
        have hlt := length_unseen_lt ha hmem
        obtain ⟨n, e, vBelow⟩ := exists_visits hc (m.enter note a) found
          (successors_of_ok hscan ▸ hc a ha)
        cases e with
        | some failure => exact ⟨_, _, .stop hmem hscan vBelow⟩
        | none =>
          have hle : (unseen domain n.seen).length ≤ (unseen domain (m.seen ++ [a])).length :=
            length_unseen_le fun b hb => vBelow.mem_seen_of_mem hb
          obtain ⟨q, e, vRest⟩ := exists_visits hc (n.finish a found) nodes hnodes
          exact ⟨q, e, .visit hmem hscan vBelow vRest⟩
  termination_by m nodes => ((unseen domain m.seen).length, nodes.length)

/-- Between two roots everything that has been seen has been finished. So it makes no difference
for which of the two the next root is passed over. -/
lemma searches_iff_visits (hm : m.Coherent) (hs : ∀ a ∈ m.seen, a ∈ m.keys) :
    Searches scan note m roots n e ↔ Visits scan note m roots n e := by
  constructor
  · intro s
    induction s with
    | nil => exact .nil
    | skip hkey _ ih => exact .skip (hm.seen _ hkey) (ih hm hs)
    | @stop m n a roots e hkey v =>
      cases v with
      | skip _ v => cases v
      | fail hnot hscan => exact .fail hnot hscan
      | stop hnot hscan v => exact .stop hnot hscan v
      | visit _ _ _ v => cases v
    | @visit m n q a roots e hkey v _ ih =>
      -- after a root without a failure, again whatever is seen is finished
      have w := ih (v.coherent hm) (v.finished_of_seen hs)
      cases v with
      | skip hmem v => exact absurd (hs a hmem) hkey
      | visit hnot hscan vBelow v =>
        cases v
        exact .visit hnot hscan vBelow w
  · intro v
    induction v with
    | nil => exact .nil
    | skip hmem _ ih => exact .skip (hs _ hmem) (ih hm hs)
    | fail hnot hscan => exact .stop (fun h => hnot (hm.seen _ h)) (.fail hnot hscan)
    | stop hnot hscan v _ => exact .stop (fun h => hnot (hm.seen _ h)) (.stop hnot hscan v)
    | @visit m n q a roots found e hnot hscan vBelow _ _ ihRest =>
      have v : Visits scan note m [a] (n.finish a found) none := .visit hnot hscan vBelow .nil
      exact .visit (fun h => hnot (hm.seen _ h)) v
        (ihRest (v.coherent hm) (v.finished_of_seen hs))

end

end MakeDeps.Search
