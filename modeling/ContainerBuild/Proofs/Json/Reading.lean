import ContainerBuild.Json.Fields
import ContainerBuild.Proofs.Json.Fields
import ContainerBuild.Proofs.Json.Parsing

namespace ContainerBuild
namespace Json

/-!
# What readers of trees accept

A reader that takes a tree apart accepts it only if the tree is whole where the reader looks, and
then finds what its parts are read as.  Each reader has one law here that says exactly when it
accepts and what it finds; the order in which faults are reported plays no part in that.
-/

variable {α β : Type}

theorem map_ok_iff {outcome : Except Fault α} {change : α → β} {y : β} :
    outcome.map change = .ok y ↔ ∃ x, outcome = .ok x ∧ y = change x := by
  cases outcome <;> simp [Except.map, eq_comm]

theorem Tree.generic_ok_iff {levels : Nat} {tree : Tree} {value : Json} :
    tree.generic levels = .ok value ↔ tree.value? levels = some value := by
  rw [generic]
  cases tree.value? levels <;> simp

theorem Document.read_ok_iff {read : Tree → Except Fault α} {document : Document} {x : α} :
    document.read read = .ok x ↔ read document.root = .ok x ∧ document.ends = true := by
  rw [Document.read]
  cases read document.root with
  | error fault => simp [bind, Except.bind]
  | ok value =>
      simp only [bind, Except.bind]
      split
      next ends => simp [ends]
      next more => simp [more]

theorem parse_ok_iff {text : String} {value : Json} : parse text = .ok value ↔
    (Document.ofText text).root.value? Tree.levelLimit = some value ∧
      (Document.ofText text).ends = true := by
  rw [parse, Document.read_ok_iff, Tree.generic_ok_iff]

theorem exists_of_forall₂ {reads : α → β → Prop} {xs : List α} {ys : List β}
    (each : List.Forall₂ reads xs ys) {x : α} (here : x ∈ xs) : ∃ y, reads x y := by
  induction each with
  | nil => cases here
  | cons head tail inductionHypothesis =>
      rcases List.mem_cons.1 here with rfl | later
      · exact ⟨_, head⟩
      · exact inductionHypothesis later

/-- A member is read as another of its name, and its value as the value of that. -/
def MemberReads (reads : α → β → Prop) (member : String × α) (other : String × β) : Prop :=
  other.1 = member.1 ∧ reads member.2 other.2

section MemberReads

variable {reads : α → β → Prop} {named : Members α} {pairs others : Members β}

/-- Members are chosen by name before or after they are read. -/
theorem reads_filter (kept : String → Bool) (each : List.Forall₂ (MemberReads reads) named pairs) :
    List.Forall₂ (MemberReads reads) (named.filter fun member => kept member.1)
      (pairs.filter fun member => kept member.1) := by
  induction each with
  | nil => exact .nil
  | cons head tail inductionHypothesis =>
      rw [List.filter_cons, List.filter_cons, head.1]
      split
      · exact .cons head inductionHypothesis
      · exact inductionHypothesis

/-- Members are read in one way only if values are. -/
theorem reads_unique (unique : ∀ x y z, reads x y → reads x z → y = z)
    (each : List.Forall₂ (MemberReads reads) named pairs)
    (again : List.Forall₂ (MemberReads reads) named others) : pairs = others := by
  induction each generalizing others with
  | nil => exact (List.forall₂_nil_left_iff.1 again).symm
  | cons head tail inductionHypothesis =>
      rcases List.forall₂_cons_left_iff.1 again with ⟨other, rest, otherHead, otherTail, rfl⟩
      rw [inductionHypothesis otherTail,
        Prod.ext (head.1.trans otherHead.1.symm) (unique _ _ _ head.2 otherHead.2)]

theorem names_of_reads (each : List.Forall₂ (MemberReads reads) named pairs) :
    pairs.names = named.names := by
  induction each with
  | nil => rfl
  | cons head tail inductionHypothesis =>
      rw [Members.names, Members.names, List.map_cons, List.map_cons, head.1]
      exact congrArg (_ :: ·) inductionHypothesis

theorem exists_reads (each : ∀ member ∈ named, ∃ y, reads member.2 y) :
    ∃ pairs, List.Forall₂ (MemberReads reads) named pairs := by
  induction named with
  | nil => exact ⟨[], .nil⟩
  | cons member rest inductionHypothesis =>
      rcases List.forall_mem_cons.1 each with ⟨⟨y, head⟩, others⟩
      rcases inductionHypothesis others with ⟨pairs, tail⟩
      exact ⟨(member.1, y) :: pairs, .cons ⟨rfl, head⟩ tail⟩

/-- One member is read as one. -/
theorem reads_singleton {name : String} {x : α} {y : β}
    (unique : ∀ z, reads x z → y = z)
    (each : List.Forall₂ (MemberReads reads) [(name, x)] pairs) : pairs = [(name, y)] := by
  rcases List.forall₂_cons_left_iff.1 each with ⟨⟨other, z⟩, rest, ⟨same, head⟩, tail, rfl⟩
  rw [List.forall₂_nil_left_iff.1 tail, unique z head]
  exact congrArg (fun name => [(name, z)]) same

end MemberReads

namespace Tree

/-- The members of an object all of whose names mean something. -/
def underNames (members : Members Tree) : List (Option String × Tree) :=
  members.map fun member => (some member.1, member.2)

/-! ## Generic values -/

theorem itemValues?_iff {levels : Nat} {items : List Tree} {values : List Json} :
    itemValues? levels items = some values ↔
      List.Forall₂ (fun item value => item.value? levels = some value) items values := by
  induction items generalizing values with
  | nil => rw [itemValues?, List.forall₂_nil_left_iff, Option.some.injEq, eq_comm]
  | cons item rest inductionHypothesis =>
      simp only [itemValues?, Option.bind_eq_bind, Option.bind_eq_some_iff, Option.some.injEq,
        inductionHypothesis, List.forall₂_cons_left_iff]
      constructor
      · rintro ⟨value, head, values, tail, rfl⟩
        exact ⟨value, values, head, tail, rfl⟩
      · rintro ⟨value, values, head, tail, rfl⟩
        exact ⟨value, head, values, tail, rfl⟩

theorem memberValues?_iff {levels : Nat} {members : List (Option String × Tree)}
    {pairs : Members Json} : memberValues? levels members = some pairs ↔
      ∃ named, members = underNames named ∧
        List.Forall₂ (MemberReads fun tree value => tree.value? levels = some value)
          named pairs := by
  induction members generalizing pairs with
  | nil =>
      rw [memberValues?, Option.some.injEq]
      constructor
      · rintro rfl
        exact ⟨[], rfl, .nil⟩
      · rintro ⟨named, none, each⟩
        rw [List.map_eq_nil_iff.1 none.symm] at each
        exact (List.forall₂_nil_left_iff.1 each).symm
  | cons member rest inductionHypothesis =>
      rcases member with ⟨name?, tree⟩
      simp only [memberValues?, Option.bind_eq_bind, Option.bind_eq_some_iff, Option.some.injEq,
        inductionHypothesis]
      constructor
      · rintro ⟨name, rfl, value, head, pairs, ⟨named, rfl, tail⟩, rfl⟩
        exact ⟨(name, tree) :: named, rfl, .cons ⟨rfl, head⟩ tail⟩
      · rintro ⟨named, same, each⟩
        cases named with
        | nil => cases same
        | cons first named =>
            cases same
            rcases List.forall₂_cons_left_iff.1 each with ⟨⟨name, value⟩, others, head, tail, rfl⟩
            cases head.1
            exact ⟨_, rfl, value, head.2, others, ⟨named, rfl, tail⟩, rfl⟩

theorem value?_array_iff {levels : Nat} {items : List Tree} {value : Json} :
    (Tree.array items true).value? (levels + 1) = some value ↔ ∃ values, value = .array values ∧
      List.Forall₂ (fun item value => item.value? levels = some value) items values := by
  simp only [value?, if_true, Option.map_eq_some_iff, itemValues?_iff]
  exact ⟨fun ⟨values, each, same⟩ => ⟨values, same.symm, each⟩,
    fun ⟨values, same, each⟩ => ⟨values, each, same.symm⟩⟩

theorem value?_object_iff {levels : Nat} {named : Members Tree} {value : Json} :
    (Tree.object (underNames named) true).value? (levels + 1) = some value ↔
      ∃ pairs, value = .object (Members.ofPairs pairs) ∧
        List.Forall₂ (MemberReads fun tree value => tree.value? levels = some value)
          named pairs := by
  have injective : Function.Injective fun member : String × Tree => (some member.1, member.2) := by
    rintro ⟨name, tree⟩ ⟨other, otherTree⟩ same
    cases same
    rfl
  simp only [value?, if_true, Option.map_eq_some_iff, memberValues?_iff]
  constructor
  · rintro ⟨pairs, ⟨others, same, each⟩, rfl⟩
    exact ⟨pairs, rfl, List.map_injective_iff.2 injective same ▸ each⟩
  · rintro ⟨pairs, rfl, each⟩
    exact ⟨pairs, ⟨named, rfl, each⟩, rfl⟩

/-! ## Scalars, arrays and objects -/

theorem scalar_ok_iff {read : Json → Except Fault α} {tree : Tree} {x : α} :
    tree.scalar read = .ok x ↔ ∃ value, tree.value? 0 = some value ∧ read value = .ok x := by
  have others (leaf : Tree) : (do read (← leaf.generic 0)) = .ok x ↔
      ∃ value, leaf.value? 0 = some value ∧ read value = .ok x := by
    rw [generic]
    cases leaf.value? 0 <;> simp [bind, Except.bind]
  cases tree with
  | array items closed => simp [scalar, value?]
  | object members closed => simp [scalar, value?]
  | _ => exact others _

theorem scalar_asString_iff {tree : Tree} {text : String} :
    tree.scalar asString = .ok text ↔ tree = .string (some text) := by
  simp only [scalar_ok_iff, Codec.asString_iff]
  cases tree <;> simp [value?]

/-- Nothing is read from a scalar that is always refused. -/
theorem scalar_refused {fault : Fault} {tree : Tree} {x : α} :
    tree.scalar (fun _ => .error fault) ≠ .ok x := fun read => by
  rcases scalar_ok_iff.1 read with ⟨_, -, refused⟩
  cases refused

theorem orNull_ok_iff {read : Tree → Except Fault α} {tree : Tree} {x? : Option α} :
    orNull read tree = .ok x? ↔
      (tree = .null ∧ x? = none) ∨ tree ≠ .null ∧ ∃ x, read tree = .ok x ∧ x? = some x := by
  cases tree with
  | null => simp [orNull, eq_comm]
  | _ => simpa [orNull] using map_ok_iff

theorem ensureClosed_bind_iff {closed : Bool} {outcome : Except Fault α} {x : α} :
    (do ensureClosed closed (← outcome)) = .ok x ↔ closed = true ∧ outcome = .ok x := by
  cases outcome with
  | error fault => simp [bind, Except.bind]
  | ok value => cases closed <;> simp [bind, Except.bind, ensureClosed]

theorem list_ok_iff {read : Tree → Except Fault α} {tree : Tree} {xs : List α} :
    tree.list read = .ok xs ↔ ∃ items, tree = .array items true ∧
      List.Forall₂ (fun item x => read item = .ok x) items xs := by
  cases tree with
  | array items closed =>
      rw [list, ensureClosed_bind_iff, Codec.mapM_ok_iff]
      simp only [Tree.array.injEq]
      exact ⟨fun ⟨whole, each⟩ => ⟨items, ⟨rfl, whole⟩, each⟩,
        fun ⟨_, ⟨same, whole⟩, each⟩ => ⟨whole, same ▸ each⟩⟩
  | _ =>
      refine iff_of_false (fun done => ?_) fun ⟨_, same, _⟩ => by cases same
      unfold list at done
      exact scalar_refused done

theorem pairs_ok_iff {read : Tree → Except Fault α} {tree : Tree} {pairs : Members α} :
    tree.pairs read = .ok pairs ↔ ∃ named, tree = .object (underNames named) true ∧
      List.Forall₂ (MemberReads fun tree x => read tree = .ok x) named pairs := by
  cases tree with
  | object members closed =>
      rw [Tree.pairs, ensureClosed_bind_iff, Codec.mapM_ok_iff]
      simp only [Tree.object.injEq]
      constructor
      · rintro ⟨rfl, each⟩
        induction each with
        | nil => exact ⟨[], ⟨rfl, rfl⟩, .nil⟩
        | @cons member pair members pairs head tail inductionHypothesis =>
            rcases inductionHypothesis with ⟨named, ⟨rfl, -⟩, others⟩
            rcases member with ⟨name?, value⟩
            cases name? with
            | none => cases head
            | some name =>
                cases outcome : read value with
                | error fault => simp [outcome, bind, Except.bind] at head
                | ok x =>
                    simp only [outcome, bind, Except.bind, Except.ok.injEq] at head
                    rw [← head]
                    exact ⟨(name, value) :: named, ⟨rfl, rfl⟩, .cons ⟨rfl, outcome⟩ others⟩
      · rintro ⟨named, ⟨rfl, rfl⟩, each⟩
        refine ⟨rfl, ?_⟩
        rw [underNames, List.forall₂_map_left_iff]
        refine each.imp fun member pair reads => ?_
        simp only [reads.2, bind, Except.bind, ← reads.1]
  | _ =>
      refine iff_of_false (fun done => ?_) fun ⟨_, same, _⟩ => by cases same
      unfold Tree.pairs at done
      exact scalar_refused done

/-! ## Fields -/

namespace Fields

/-- The values of a name, in order. -/
theorem occurrences_underNames (named : Members Tree) (closed : Bool) (name : String) :
    ((⟨underNames named, closed⟩ : Fields).occurrences name).map Prod.snd =
      (named.filter fun member => member.1 == name).map Prod.snd := by
  have step : ∀ start, (((underNames named).zipIdx start).filterMap fun placed =>
      if placed.1.1 = some name then some (placed.2, placed.1.2) else none).map Prod.snd =
        (named.filter fun member => member.1 == name).map Prod.snd := by
    induction named with
    | nil => exact fun _ => rfl
    | cons member rest inductionHypothesis =>
        intro start
        have later := inductionHypothesis (start + 1)
        rw [underNames, List.map_cons, List.zipIdx_cons, List.filterMap_cons, List.filter_cons]
        by_cases same : member.1 = name
        · simp only [same, if_true, beq_self_eq_true, List.map_cons]
          exact congrArg (member.2 :: ·) later
        · simp only [Option.some.injEq, same, if_false, beq_false_of_ne same, Bool.false_eq_true]
          exact later
  exact step 0

/-- A field is found if its name stands nowhere, or in one place that can be read. -/
theorem once_found_iff {named : Members Tree} {closed : Bool} {name : String}
    {read : Tree → Except Fault α} {missing : Answer α} {x : α} :
    (⟨underNames named, closed⟩ : Fields).once name read missing = .found x ↔
      (named.filter (fun member => member.1 == name) = [] ∧ missing = .found x) ∨
        ∃ tree, named.filter (fun member => member.1 == name) = [(name, tree)] ∧
          read tree = .ok x := by
  have values := occurrences_underNames named closed name
  have names : ∀ member ∈ named.filter (fun member => member.1 == name), member.1 = name :=
    fun member here => beq_iff_eq.1 (List.mem_filter.1 here).2
  rw [once]
  generalize (⟨underNames named, closed⟩ : Fields).occurrences name = places at values
  generalize named.filter (fun member => member.1 == name) = members at values names
  match places, members with
  | [], [] => simp
  | [], member :: rest => simp at values
  | _ :: _, [] => simp at values
  | [(place, value)], [(other, tree)] =>
      cases names _ List.mem_cons_self
      cases values
      simp [Answer.ofRead_found_iff]
  | [_], _ :: _ :: _ => simp at values
  | _ :: _ :: _, [_] => simp at values
  | (place, value) :: (again, _) :: _, _ :: _ :: _ => simp

theorem forall₂_append_left {γ δ : Type} {relation : γ → δ → Prop} {first second : List γ}
    {all : List δ} (each : List.Forall₂ relation (first ++ second) all) :
    ∃ front back, List.Forall₂ relation first front ∧ List.Forall₂ relation second back ∧
      all = front ++ back := by
  induction first generalizing all with
  | nil => exact ⟨[], all, .nil, each, rfl⟩
  | cons x rest inductionHypothesis =>
      rcases List.forall₂_cons_left_iff.1 each with ⟨y, others, head, tail, rfl⟩
      rcases inductionHypothesis tail with ⟨front, back, inFront, inBack, rfl⟩
      exact ⟨y :: front, back, .cons head inFront, inBack, rfl⟩

/-- What a member at a place adds to the members of unknown names. -/
def otherAt (known : List String) (read : Tree → Except Fault α) :
    (Option String × Tree) × Nat → Answer (Members α)
  | ((none, _), place) => .faulty place .brokenText
  | ((some name, value), place) =>
      if known.contains name then .found []
      else (fun value => [(name, value)]) <$> .ofRead place (read value)

theorem otherAt_found_iff {known : List String} {read : Tree → Except Fault α}
    {name? : Option String} {value : Tree} {place : Nat} {pairs : Members α} :
    otherAt known read ((name?, value), place) = .found pairs ↔ ∃ name, name? = some name ∧
      List.Forall₂ (MemberReads fun tree x => read tree = .ok x)
        ([(name, value)].filter fun member => !known.contains member.1) pairs := by
  cases name? with
  | none => simp [otherAt]
  | some name =>
      simp only [otherAt, Option.some.injEq, exists_eq_left', List.filter_cons, List.filter_nil]
      cases known.contains name with
      | true => simp [eq_comm]
      | false =>
          simp only [Bool.false_eq_true, if_false, Answer.map_found_iff, Answer.ofRead_found_iff,
            Bool.not_false, if_true, List.forall₂_cons_left_iff, List.forall₂_nil_left_iff]
          constructor
          · rintro ⟨x, done, rfl⟩
            exact ⟨(name, x), [], ⟨rfl, done⟩, rfl, rfl⟩
          · rintro ⟨⟨other, x⟩, _, ⟨same, done⟩, rfl, rfl⟩
            cases same
            exact ⟨x, done, rfl⟩

theorem foldr_otherAt_found_iff {known : List String} {read : Tree → Except Fault α}
    {members : List (Option String × Tree)} {start : Nat} {pairs : Members α} :
    ((members.zipIdx start).map (otherAt known read)).foldr
        (fun answer rest => List.append <$> answer <*> rest) (.found []) = .found pairs ↔
      ∃ named, members = underNames named ∧
        List.Forall₂ (MemberReads fun tree x => read tree = .ok x)
          (named.filter fun member => !known.contains member.1) pairs := by
  induction members generalizing start pairs with
  | nil =>
      constructor
      · intro found
        cases found
        exact ⟨[], rfl, .nil⟩
      · rintro ⟨named, none, each⟩
        rw [List.map_eq_nil_iff.1 none.symm] at each
        cases each
        rfl
  | cons member rest inductionHypothesis =>
      rcases member with ⟨name?, value⟩
      rw [List.zipIdx_cons, List.map_cons, List.foldr_cons]
      simp only [Answer.seq_found_iff, Answer.map_found_iff, inductionHypothesis,
        otherAt_found_iff]
      constructor
      · rintro ⟨_, back, ⟨front, ⟨name, rfl, head⟩, rfl⟩, ⟨named, rfl, tail⟩, rfl⟩
        refine ⟨(name, value) :: named, rfl, ?_⟩
        rw [← List.singleton_append, List.filter_append]
        exact List.rel_append head tail
      · rintro ⟨named, same, each⟩
        cases named with
        | nil => cases same
        | cons first named =>
            cases same
            rw [← List.singleton_append, List.filter_append] at each
            rcases forall₂_append_left each with ⟨front, back, head, tail, rfl⟩
            exact ⟨_, back, ⟨front, ⟨first.1, rfl, head⟩, rfl⟩, ⟨named, rfl, tail⟩, rfl⟩

/-- Members of unknown names are found if all names mean something, the object is closed and each
of the members can be read. -/
theorem others_found_iff {fields : Fields} {known : List String} {read : Tree → Except Fault α}
    {pairs : Members α} : fields.others known read = .found pairs ↔ fields.closed = true ∧
      ∃ named, fields.members = underNames named ∧
        List.Forall₂ (MemberReads fun tree x => read tree = .ok x)
          (named.filter fun member => !known.contains member.1) pairs := by
  have ended : fields.ended = .found () ↔ fields.closed = true := by
    rw [Fields.ended]
    split
    next whole => simp [whole]
    next broken => simp [broken]
  have each : fields.others known read = (fun all () => all) <$>
      ((fields.members.zipIdx.map (otherAt known read)).foldr
        (fun answer rest => List.append <$> answer <*> rest) (.found [])) <*> fields.ended := by
    rw [others]
    congr 3
    refine List.map_congr_left fun ⟨⟨name?, value⟩, place⟩ _ => ?_
    cases name? <;> rfl
  rw [each]
  simp only [Answer.seq_found_iff, Answer.map_found_iff, foldr_otherAt_found_iff]
  constructor
  · rintro ⟨_, ⟨⟩, ⟨others, all, rfl⟩, whole, rfl⟩
    exact ⟨ended.1 whole, all⟩
  · rintro ⟨whole, all⟩
    exact ⟨_, (), ⟨pairs, all, rfl⟩, ended.2 whole, rfl⟩

end Fields

theorem askObject_ok_iff {ask : Fields → Answer α} {tree : Tree} {x : α} :
    askObject ask tree = .ok x ↔
      ∃ members closed, tree = .object members closed ∧ ask ⟨members, closed⟩ = .found x := by
  cases tree with
  | object members closed =>
      change (ask ⟨members, closed⟩).settle = .ok x ↔ _
      rw [Answer.settle_ok_iff]
      constructor
      · exact fun found => ⟨members, closed, rfl, found⟩
      · rintro ⟨_, _, ⟨⟩, found⟩
        exact found
  | _ =>
      refine iff_of_false (fun done => ?_) fun ⟨_, _, same, _⟩ => by cases same
      unfold askObject at done
      exact scalar_refused done

end Tree
end Json
end ContainerBuild
