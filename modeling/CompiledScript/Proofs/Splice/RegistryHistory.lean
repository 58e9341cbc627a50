import CompiledScript.Bytes
import CompiledScript.Proofs.Splice.Registry

/-!
# Registries over any history

Bodies are put into a registry and asked for in any order, under any keys.  Seen from one
key, the registry is a queue of bodies: a request for another key does not touch it, and a
request for this key gets the answer, and leaves the queue, that the queue alone
determines.  So a history can be taken apart into one history for each key.

In each of these, what was handed out followed by what is left is what was put in.  A body
is asked for with an argument specification.  If the oldest body that is left was compiled
with another one it is not handed out, and it blocks the bodies behind it until somebody
asks for it as it is.
-/

set_option autoImplicit false

namespace CompiledScript

/-- What can be asked of a registry. -/
inductive RegistryRequest (κ : Type) where
  | insert (key : κ) (body : PrecompiledBody)
  | take (key : κ) (arguments : String)

namespace RegistryRequest

variable {κ : Type}

def key : RegistryRequest κ → κ
  | insert key _ | take key _ => key

/-- The body that a request puts in. -/
def inserted? : RegistryRequest κ → Option PrecompiledBody
  | insert _ body => some body
  | take _ _ => none

end RegistryRequest

/-! ## What a list yields -/

section Yields

variable {α β : Type} (f : α → Option β) (item : α) (items : List α)

theorem filterMap_cons_toList :
    (item :: items).filterMap f = (f item).toList ++ items.filterMap f := by
  rw [List.filterMap_cons]
  cases f item <;> rfl

theorem filterMap_filter_cons (p : α → Prop) [DecidablePred p] :
    ((item :: items).filter fun each => p each).filterMap f =
      (if p item then (f item).toList else []) ++
        (items.filter fun each => p each).filterMap f := by
  by_cases own : p item
  · rw [if_pos own, List.filter_cons_of_pos (by simpa using own), filterMap_cons_toList]
  · rw [if_neg own, List.filter_cons_of_neg (by simpa using own), List.nil_append]

end Yields

/-! ## The queue of one key -/

/-- Bodies that wait under one key, oldest first. -/
abbrev BodyQueue := List PrecompiledBody

namespace BodyQueue

/-- What a queue answers when the next body is asked for. -/
def delivery (queue : BodyQueue) (arguments : String) : Delivery :=
  match queue.head? with
  | none => .notFound
  | some oldest => if oldest.arguments = arguments then .substituted oldest else .argumentsDiffer

/-- What a request leaves of the queue of its key. -/
def serve {κ : Type} (queue : BodyQueue) : RegistryRequest κ → BodyQueue
  | .insert _ body => queue ++ [body]
  | .take _ arguments => queue.drop (delivery queue arguments).body?.toList.length

variable {queue : BodyQueue} {arguments : String} {body : PrecompiledBody}

theorem delivery_substituted_iff :
    delivery queue arguments = .substituted body ↔
      queue.head? = some body ∧ Bytes.ofText body.arguments = Bytes.ofText arguments := by
  rw [delivery]
  cases queue.head? with
  | none => simp
  | some oldest =>
    by_cases same : oldest.arguments = arguments
    · simp only [if_pos same, Delivery.substituted.injEq, Option.some.injEq]
      constructor
      · rintro rfl
        exact ⟨rfl, congrArg _ same⟩
      · exact fun found => found.1
    · simp only [if_neg same, reduceCtorEq, Option.some.injEq, false_iff, not_and]
      rintro rfl matching
      exact same (Bytes.ofText_injective matching)

theorem delivery_argumentsDiffer_iff :
    delivery queue arguments = .argumentsDiffer ↔
      ∃ oldest, queue.head? = some oldest ∧
        Bytes.ofText oldest.arguments ≠ Bytes.ofText arguments := by
  rw [delivery]
  cases queue.head? with
  | none => simp
  | some oldest =>
    by_cases same : oldest.arguments = arguments
    · simp [same]
    · have differ : Bytes.ofText oldest.arguments ≠ Bytes.ofText arguments :=
        fun matching => same (Bytes.ofText_injective matching)
      simp [if_neg same, differ]

theorem delivery_notFound_iff : delivery queue arguments = .notFound ↔ queue = [] := by
  rw [delivery]
  cases queue with
  | nil => simp
  | cons oldest queue =>
    by_cases same : oldest.arguments = arguments <;> simp [same]

end BodyQueue

namespace Registry

variable {κ : Type} [DecidableEq κ] {registry other : Registry κ} {request : RegistryRequest κ}
  {requests : List (RegistryRequest κ)} {key : κ}

/-! ## Histories -/

/-- The answer to a request, if a body is asked for, and the registry after it. -/
def serve (registry : Registry κ) : RegistryRequest κ → Option Delivery × Registry κ
  | .insert key body => (none, registry.insert key body)
  | .take key arguments =>
    let (delivery, left) := registry.take key arguments
    (some delivery, left)

/-- The registry after a list of requests. -/
def after (registry : Registry κ) : List (RegistryRequest κ) → Registry κ
  | [] => registry
  | request :: requests => (registry.serve request).2.after requests

/-- A list of requests, each with the answer to it. -/
def history (registry : Registry κ) :
    List (RegistryRequest κ) → List (RegistryRequest κ × Option Delivery)
  | [] => []
  | request :: requests =>
    (request, (registry.serve request).1) :: (registry.serve request).2.history requests

/-- The body that was handed out in answer to a request. -/
def handed? (answered : RegistryRequest κ × Option Delivery) : Option PrecompiledBody :=
  answered.2.bind Delivery.body?

/-- The bodies that were handed out for a key, in order. -/
def handed (registry : Registry κ) (requests : List (RegistryRequest κ)) (key : κ) :
    List PrecompiledBody :=
  ((registry.history requests).filter fun answered => answered.1.key = key).filterMap handed?

/-- The bodies that were put in under a key, in order. -/
def inserted (requests : List (RegistryRequest κ)) (key : κ) : List PrecompiledBody :=
  (requests.filter fun request => request.key = key).filterMap RegistryRequest.inserted?

theorem history_append (registry : Registry κ) (requests later : List (RegistryRequest κ)) :
    registry.history (requests ++ later) =
      registry.history requests ++ (registry.after requests).history later := by
  induction requests generalizing registry with
  | nil => rfl
  | cons request requests ih =>
    rw [List.cons_append, history, ih, history, after, List.cons_append]

/-! ## A registry as queues -/

theorem take_delivery (registry : Registry κ) (key : κ) (arguments : String) :
    (registry.take key arguments).1 = BodyQueue.delivery (registry.bodies key) arguments := by
  rw [take, oldest?_eq_head?, BodyQueue.delivery]
  cases (registry.bodies key).head? with
  | none => rfl
  | some oldest => by_cases same : oldest.arguments = arguments <;> simp only [same, if_true, if_false]

/-- What a request leaves for a key is what it leaves of the queue of this key, if it is for this
key. -/
theorem bodies_serve (registry : Registry κ) (request : RegistryRequest κ) (key : κ) :
    (registry.serve request).2.bodies key =
      if request.key = key then BodyQueue.serve (registry.bodies key) request
      else registry.bodies key := by
  cases request with
  | insert asked body =>
    have added := registry.bodies_insert asked key body
    by_cases same : asked = key
    · rw [if_pos same] at added
      rw [RegistryRequest.key, if_pos same]
      exact added
    · rw [if_neg same, List.append_nil] at added
      rw [RegistryRequest.key, if_neg same]
      exact added
  | take asked arguments =>
    have whole := registry.bodies_take asked key arguments
    by_cases same : asked = key
    · subst same
      rw [if_pos rfl] at whole
      rw [RegistryRequest.key, if_pos rfl, BodyQueue.serve, ← take_delivery, ← whole,
        List.drop_left]
      rfl
    · rw [if_neg same, List.nil_append] at whole
      rw [RegistryRequest.key, if_neg same]
      exact whole

/-- The answer to a request is up to the queue of its key. -/
theorem answer_eq (same : registry.bodies request.key = other.bodies request.key) :
    (registry.serve request).1 = (other.serve request).1 := by
  cases request with
  | insert key body => rfl
  | take key arguments =>
    have delivered : (registry.take key arguments).1 = (other.take key arguments).1 := by
      rw [take_delivery, take_delivery, show registry.bodies key = other.bodies key from same]
    exact congrArg some delivered

/-! ## One key at a time -/

/-- A history is for each key the one of the requests for this key. -/
theorem history_filter (same : registry.bodies key = other.bodies key)
    (requests : List (RegistryRequest κ)) :
    (registry.history requests).filter (fun answered => answered.1.key = key) =
        other.history (requests.filter fun request => request.key = key) ∧
      (registry.after requests).bodies key =
        (other.after (requests.filter fun request => request.key = key)).bodies key := by
  induction requests generalizing registry other with
  | nil => exact ⟨rfl, same⟩
  | cons request requests ih =>
    have left := registry.bodies_serve request key
    by_cases own : request.key = key
    · have others := other.bodies_serve request key
      rw [if_pos own] at left others
      obtain ⟨answers, bodies⟩ := ih (left.trans (same ▸ others.symm))
      have answer : (registry.serve request).1 = (other.serve request).1 :=
        answer_eq (own ▸ same)
      rw [List.filter_cons_of_pos (by simpa using own), history, history, after, after,
        List.filter_cons_of_pos (by simpa using own), answers, answer]
      exact ⟨rfl, bodies⟩
    · rw [if_neg own] at left
      obtain ⟨answers, bodies⟩ := ih (left.trans same)
      rw [List.filter_cons_of_neg (by simpa using own), history, after,
        List.filter_cons_of_neg (by simpa using own)]
      exact ⟨answers, bodies⟩

/-- What is handed out for one key in answer to a request, put in front of what is left, is what
was there, behind which the request has put what it brings. -/
theorem handed_serve (registry : Registry κ) (request : RegistryRequest κ) :
    (handed? (request, (registry.serve request).1)).toList ++
        (registry.serve request).2.bodies request.key =
      registry.bodies request.key ++ request.inserted?.toList := by
  cases request with
  | insert key body =>
    have added := registry.bodies_insert key key body
    rw [if_pos rfl] at added
    exact added
  | take key arguments =>
    have whole := registry.bodies_take key key arguments
    rw [if_pos rfl] at whole
    exact whole.trans (List.append_nil _).symm

theorem handed_cons (registry : Registry κ) (request : RegistryRequest κ)
    (requests : List (RegistryRequest κ)) (key : κ) :
    registry.handed (request :: requests) key =
      (if request.key = key then (handed? (request, (registry.serve request).1)).toList else []) ++
        (registry.serve request).2.handed requests key :=
  filterMap_filter_cons handed? _ _ fun answered => answered.1.key = key

theorem inserted_cons (request : RegistryRequest κ) (requests : List (RegistryRequest κ))
    (key : κ) :
    inserted (request :: requests) key =
      (if request.key = key then request.inserted?.toList else []) ++ inserted requests key :=
  filterMap_filter_cons RegistryRequest.inserted? request requests fun each => each.key = key

/-- For each key, what a history has handed out, put in front of what is left, is what was there at
first and what was put in. -/
theorem handed_after (registry : Registry κ) (requests : List (RegistryRequest κ)) (key : κ) :
    registry.handed requests key ++ (registry.after requests).bodies key =
      registry.bodies key ++ inserted requests key := by
  induction requests generalizing registry with
  | nil => exact (List.append_nil _).symm
  | cons request requests ih =>
    rw [handed_cons, inserted_cons, after, List.append_assoc, ih, ← List.append_assoc,
      ← List.append_assoc]
    congr 1
    by_cases own : request.key = key
    · subst own
      rw [if_pos rfl, if_pos rfl]
      exact registry.handed_serve request
    · rw [if_neg own, if_neg own, List.nil_append, List.append_nil, bodies_serve, if_neg own]

/-! ## How much is left -/

theorem size_serve (registry : Registry κ) (request : RegistryRequest κ) :
    (registry.serve request).2.size +
        (handed? (request, (registry.serve request).1)).toList.length =
      registry.size + request.inserted?.toList.length := by
  cases request with
  | insert key body =>
    change (registry.entries ++ [(key, body)]).length + 0 = registry.entries.length + 1
    rw [List.length_append, List.length_singleton]
  | take key arguments =>
    change (registry.take key arguments).2.size +
      (registry.take key arguments).1.body?.toList.length = registry.size + 0
    cases handed : (registry.take key arguments).1.body? with
    | none => rw [take_of_none handed, Option.toList_none, List.length_nil]
    | some body =>
      obtain ⟨first, -⟩ := take_body?_iff.mp handed
      rw [← oldest?_eq_head?] at first
      obtain ⟨entry, found, -⟩ := Option.map_eq_some_iff.mp first
      have listed := List.mem_of_find?_eq_some found
      have named : (entry.1 == key) = true :=
        List.find?_some (p := fun entry : κ × PrecompiledBody => entry.1 == key) found
      rw [take_of_some handed, eraseOldest, size, List.length_eraseP_of_mem listed named, size]
      have := List.length_pos_of_mem listed
      simp only [Option.toList_some, List.length_singleton]
      omega

/-- Whatever was put in is handed out or left. -/
theorem size_after (registry : Registry κ) (requests : List (RegistryRequest κ)) :
    (registry.after requests).size + ((registry.history requests).filterMap handed?).length =
      registry.size + (requests.filterMap RegistryRequest.inserted?).length := by
  induction requests generalizing registry with
  | nil => rfl
  | cons request requests ih =>
    have first := registry.size_serve request
    have others := ih (registry.serve request).2
    rw [history, after, filterMap_cons_toList, filterMap_cons_toList, List.length_append,
      List.length_append]
    omega

/-! ## First in, first out -/

/-- The bodies that were put in under a key and not handed out, oldest first. -/
def pending (requests : List (RegistryRequest κ)) (key : κ) : List PrecompiledBody :=
  (inserted requests key).drop (empty.handed requests key).length

/-- How a registry that was empty at first has served a list of requests, and how it serves the next
one. -/
structure FirstInFirstOut (requests : List (RegistryRequest κ)) : Prop where
  /-- The history goes on with what the registry answers next. -/
  next : ∀ key arguments, empty.history (requests ++ [.take key arguments]) =
    empty.history requests ++
      [(.take key arguments, some ((empty.after requests).take key arguments).1)]
  /-- Under each key nothing is lost, handed out twice, or out of order. -/
  inOrder : ∀ key, empty.handed requests key <+: inserted requests key
  left : ∀ key, (empty.after requests).bodies key = pending requests key
  /-- The oldest body left is handed out to who asks for it with the argument specification it was
  compiled with, byte for byte. -/
  substituted : ∀ key arguments body,
    ((empty.after requests).take key arguments).1 = .substituted body ↔
      (pending requests key).head? = some body ∧
        Bytes.ofText body.arguments = Bytes.ofText arguments
  argumentsDiffer : ∀ key arguments,
    ((empty.after requests).take key arguments).1 = .argumentsDiffer ↔
      ∃ oldest, (pending requests key).head? = some oldest ∧
        Bytes.ofText oldest.arguments ≠ Bytes.ofText arguments
  notFound : ∀ key arguments,
    ((empty.after requests).take key arguments).1 = .notFound ↔ pending requests key = []
  unchanged : ∀ key arguments, ((empty.after requests).take key arguments).1.body? = none →
    ((empty.after requests).take key arguments).2 = empty.after requests
  /-- Requests for other keys make no difference to the answers for a key, and to what is left. -/
  apart : ∀ key, let own := requests.filter fun request => request.key = key
    (empty.history requests).filter (fun answered => answered.1.key = key) = empty.history own ∧
      (empty.after requests).bodies key = (empty.after own).bodies key
  size : (empty.after requests).size + ((empty.history requests).filterMap handed?).length =
    (requests.filterMap RegistryRequest.inserted?).length

/-- **A registry is a queue for each key.**  Whatever was put into an empty registry and asked for,
in any order, its bodies are handed out for each key in the order in which they were put in; the
oldest one that is left is handed out exactly if it was compiled with the argument specification
that it is asked for with, and otherwise nothing changes. -/
theorem first_in_first_out (requests : List (RegistryRequest κ)) : FirstInFirstOut requests := by
  have parts : ∀ key, empty.handed requests key ++ (empty.after requests).bodies key =
      inserted requests key := empty.handed_after requests
  have left : ∀ key, (empty.after requests).bodies key = pending requests key := by
    intro key
    rw [pending, ← parts key, List.drop_left]
  constructor
  case next => exact fun key arguments => empty.history_append requests [.take key arguments]
  case inOrder => exact fun key => ⟨_, parts key⟩
  case left => exact left
  case substituted =>
    intro key arguments body
    rw [take_delivery, left]
    exact BodyQueue.delivery_substituted_iff
  case argumentsDiffer =>
    intro key arguments
    rw [take_delivery, left]
    exact BodyQueue.delivery_argumentsDiffer_iff
  case notFound =>
    intro key arguments
    rw [take_delivery, left]
    exact BodyQueue.delivery_notFound_iff
  case unchanged => exact fun key arguments handed => take_of_none handed
  case apart => exact fun key => history_filter rfl requests
  case size => exact (empty.size_after requests).trans (Nat.zero_add _)

/-- Whoever asks for the second body too early gets nothing, until the first is asked for. -/
example (first second : Block) :
    (empty.history [.insert 7 ⟨"::", "x", first⟩, .insert 7 ⟨"::", "y", second⟩, .take 7 "y",
        .take 7 "x", .take 7 "y", .take 7 "y"]).filterMap Prod.snd =
      [.argumentsDiffer, .substituted ⟨"::", "x", first⟩, .substituted ⟨"::", "y", second⟩,
        .notFound] := by
  rfl

end Registry

end CompiledScript
