import CogWsl.Runs
import CogWsl.AttentionPass

/-!
`AddOutgoingLink` and `AddIncomingLink` append a target only when it is non-null and not yet in
the list. A link list is therefore the list of distinct non-null arguments in order of first
occurrence, which is `List.eraseDups`, whoever makes the calls: `Plan`, `SelfModify` and the
integration layer all write through `Graph.addOutgoingLink`, one atom at a time. With no
duplicate target, the turn of an atom in `UpdateAttentionValues` gives each target one share.
-/

namespace CogWsl

namespace Atom

theorem eraseDups_loop_cons (a : Nat) (as bs : List Nat) :
    List.eraseDups.loop (a :: as) bs =
      if a ∈ bs then List.eraseDups.loop as bs else List.eraseDups.loop as (a :: bs) := by
  have key : ∀ b : Bool, List.elem a bs = b → List.eraseDups.loop (a :: as) bs =
      (match b with | true => List.eraseDups.loop as bs | false => List.eraseDups.loop as (a :: bs)) := by
    rintro b rfl
    rfl
  by_cases h : a ∈ bs
  · rw [if_pos h, key true (List.elem_iff.mpr h)]
  · rw [if_neg h, key false (by simpa using h)]

theorem eraseDups_loop_eq (as bs : List Nat) :
    List.eraseDups.loop as bs = (as.map some).foldl addLink bs.reverse := by
  induction as generalizing bs with
  | nil => rfl
  | cons a as ih =>
    rw [eraseDups_loop_cons, List.map_cons, List.foldl_cons]
    by_cases h : a ∈ bs
    · rw [if_pos h, ih, addLink, if_pos (List.mem_reverse.mpr h)]
    · rw [if_neg h, ih, addLink, if_neg (mt List.mem_reverse.mp h), List.reverse_cons]

theorem foldl_addLink_filterMap (args : List (Option Nat)) (links : List Nat) :
    args.foldl addLink links = ((args.filterMap id).map some).foldl addLink links := by
  induction args generalizing links with
  | nil => rfl
  | cons q args ih => cases q <;> exact ih _

theorem foldl_addLink_of_nodup {l : List Nat} (hl : l.Nodup) (acc : List Nat)
    (hd : ∀ p ∈ l, p ∉ acc) : (l.map some).foldl addLink acc = acc ++ l := by
  induction l generalizing acc with
  | nil => simp
  | cons p l ih =>
    rw [List.map_cons, List.foldl_cons, addLink, if_neg (hd p (List.mem_cons_self p l)),
      ih (List.nodup_cons.mp hl).2 _ fun q hq hq' => ?_, List.append_assoc, List.singleton_append]
    rcases List.mem_append.mp hq' with h | h
    · exact hd q (List.mem_cons_of_mem p hq) h
    · exact (List.nodup_cons.mp hl).1 (List.mem_singleton.mp h ▸ hq)

theorem foldl_addLink_nodup {links : List Nat} (h : links.Nodup) (args : List (Option Nat)) :
    (args.foldl addLink links).Nodup := by
  induction args generalizing links with
  | nil => exact h
  | cons q args ih => exact ih (addLink_nodup h q)

theorem foldl_addLink_eraseDups {links : List Nat} (h : links.Nodup) (args : List (Option Nat)) :
    args.foldl addLink links = (links ++ args.filterMap id).eraseDups := by
  have hl := foldl_addLink_of_nodup h [] fun _ _ h' => List.not_mem_nil _ h'
  rw [List.nil_append] at hl
  rw [List.eraseDups, eraseDups_loop_eq, List.reverse_nil, List.map_append, List.foldl_append, hl,
    foldl_addLink_filterMap]

theorem foldl_addOutgoingLink (a : Atom) (args : List (Option Nat)) :
    (args.foldl addOutgoingLink a).outgoingLinks = args.foldl addLink a.outgoingLinks := by
  induction args generalizing a with
  | nil => rfl
  | cons q args ih => exact ih _

theorem foldl_addIncomingLink (a : Atom) (args : List (Option Nat)) :
    (args.foldl addIncomingLink a).incomingLinks = args.foldl addLink a.incomingLinks := by
  induction args generalizing a with
  | nil => rfl
  | cons q args ih => exact ih _

end Atom

namespace Graph

def addOutgoingLinks (g : Graph) (calls : List (Nat × Option Nat)) : Graph :=
  calls.foldl (fun g c => g.addOutgoingLink c.1 c.2) g

theorem addOutgoingLinks_objects (g : Graph) (calls : List (Nat × Option Nat)) (r : Nat) :
    (g.addOutgoingLinks calls).mem.objects r =
      (g.mem.objects r).map fun a => ((calls.filter (·.1 == r)).map (·.2)).foldl Atom.addOutgoingLink a := by
  induction calls generalizing g with
  | nil =>
    show g.mem.objects r = _
    cases g.mem.objects r <;> rfl
  | cons c calls ih =>
    rw [addOutgoingLinks, List.foldl_cons, ← addOutgoingLinks, ih]
    show Option.map _ ((g.mem.modify c.1 _).objects r) = _
    rw [Memory.modify_objects]
    by_cases hr : r = c.1
    · subst hr
      cases g.mem.objects c.1 <;> simp
    · simp [hr, Ne.symm hr]

end Graph

theorem attentionStep_objects_of_nodup {mem : Memory} {y : Nat} {b : Atom}
    (hb : mem.objects y = some b) (hnd : b.outgoingLinks.Nodup) {x : Nat} (hxy : x ≠ y) :
    (Graph.attentionStep mem y).objects x = (mem.objects x).map fun a => a.setAttention
      (if x ∈ b.outgoingLinks then a.attention + b.attention * (1 / 10) / b.outgoingLinks.length
        else a.attention) := by
  rw [Graph.attentionStep_objects hb]
  simp only [if_neg hxy]
  split_ifs with hx
  · simp only [List.count_eq_one_of_mem hnd hx, Nat.cast_one, one_mul]
  · simp only [List.count_eq_zero_of_not_mem hx, Nat.cast_zero, zero_mul, add_zero]

open Relation

namespace Memory

def LinksNodup (mem : Memory) : Prop :=
  ∀ p a, mem.objects p = some a → a.outgoingLinks.Nodup ∧ a.incomingLinks.Nodup

theorem LinksNodup.alloc {mem : Memory} (h : mem.LinksNodup) {a : Atom}
    (ha : a.outgoingLinks.Nodup ∧ a.incomingLinks.Nodup) : (mem.alloc a).LinksNodup := fun q b hq => by
  rw [alloc_objects] at hq
  split at hq
  · cases hq
    exact ha
  · exact h q b hq

theorem LinksNodup.modify {mem : Memory} (h : mem.LinksNodup) (p : Nat) {f : Atom → Atom}
    (hf : ∀ a, a.outgoingLinks.Nodup ∧ a.incomingLinks.Nodup → (f a).outgoingLinks.Nodup ∧ (f a).incomingLinks.Nodup) :
    (mem.modify p f).LinksNodup := fun q b hq => by
  rw [modify_objects] at hq
  split at hq
  · obtain ⟨a, ha, rfl⟩ := Option.map_eq_some'.mp hq
    exact hf a (h q a ha)
  · exact h q b hq

end Memory

namespace Graph

theorem SpaceCall.linksNodup {g g' : Graph} (h : SpaceCall g g') (hg : g.mem.LinksNodup) : g'.mem.LinksNodup := by
  cases h with
  | createAtom type name v c =>
    cases hn : g.space.atomsByName.lookup name with
    | some p => rw [createAtom_of_lookup hn]; exact hg
    | none => rw [createAtom_of_lookup_none hn]; exact hg.alloc ⟨List.nodup_nil, List.nodup_nil⟩
  | update p f hf => exact hg.modify p fun a ha => ⟨(hf a).2.2.2 ha.1, (hf a).2.2.1 ▸ ha.2⟩
  | removeAtom id => exact (removeAtom_mem g id).symm ▸ hg
  | clear => exact hg

theorem linksNodup_of_spaceCalls {g g' : Graph} (h : ReflTransGen SpaceCall g g') (hg : g.mem.LinksNodup) :
    g'.mem.LinksNodup := by
  induction h with
  | refl => exact hg
  | tail _ hs ih => exact hs.linksNodup ih

end Graph

namespace World

theorem apply_linksNodup (w : World) (o : Op) (h : w.graph.mem.LinksNodup) : (w.apply o).graph.mem.LinksNodup := by
  cases hi : o.addsIncomingLink
  · exact Graph.linksNodup_of_spaceCalls (apply_spaceCalls w hi) h
  · obtain ⟨q, r, rfl⟩ : ∃ q r, o = .addIncomingLink q r := by
      cases o <;> first | exact ⟨_, _, rfl⟩ | cases hi
    unfold apply
    split
    · exact h
    · exact h.modify q fun a ha => ⟨ha.1, Atom.addLink_nodup ha.2 r⟩

theorem run_linksNodup (w : World) (ops : List Op) (h : w.graph.mem.LinksNodup) :
    (w.run ops).graph.mem.LinksNodup := by
  induction ops generalizing w with
  | nil => exact h
  | cons o ops ih => exact ih _ (apply_linksNodup w o h)

theorem init_run_linksNodup (ops : List Op) :
    ∀ p a, (init.run ops).graph.mem.objects p = some a → a.outgoingLinks.Nodup ∧ a.incomingLinks.Nodup :=
  run_linksNodup init ops fun _ _ h => nomatch h

def linkedTwice : World :=
  init.run [.createAtom .concept "X" 1 1, .createAtom .concept "Y" 1 1, .addOutgoingLink 1 (some 2),
    .addOutgoingLink 1 (some 2)]

theorem linkedTwice_linksNodup :
    ∃ a, linkedTwice.graph.mem.objects 1 = some a ∧ a.outgoingLinks = [2] ∧ a.outgoingLinks.Nodup ∧
      a.incomingLinks.Nodup :=
  ⟨_, rfl, rfl, init_run_linksNodup [.createAtom .concept "X" 1 1, .createAtom .concept "Y" 1 1,
    .addOutgoingLink 1 (some 2), .addOutgoingLink 1 (some 2)] 1 _ rfl⟩

end World

namespace Graph

def OneShare (g : Graph) : Prop :=
  ∀ y b, g.mem.objects y = some b → b.outgoingLinks.Nodup ∧ ∀ x, x ≠ y →
    (attentionStep g.mem y).objects x = (g.mem.objects x).map fun c => c.setAttention
      (if x ∈ b.outgoingLinks then c.attention + b.attention * (1 / 10) / b.outgoingLinks.length
        else c.attention)

theorem oneShare_of_linksNodup {g : Graph} (h : g.mem.LinksNodup) : g.OneShare := fun y b hb =>
  ⟨(h y b hb).1, fun _ hxy => attentionStep_objects_of_nodup hb (h y b hb).1 hxy⟩

end Graph

namespace Atom

structure LinksLaw (a : Atom) (args : List (Option Nat)) : Prop where
  outgoing : (args.foldl addOutgoingLink a).outgoingLinks = (a.outgoingLinks ++ args.filterMap id).eraseDups
  incoming : (args.foldl addIncomingLink a).incomingLinks = (a.incomingLinks ++ args.filterMap id).eraseDups
  outgoing_nodup : (args.foldl addOutgoingLink a).outgoingLinks.Nodup
  incoming_nodup : (args.foldl addIncomingLink a).incomingLinks.Nodup
  graph : ∀ (g : Graph) (r : Nat) (calls : List (Nat × Option Nat)), g.mem.objects r = some a →
    (calls.filter (·.1 == r)).map (·.2) = args →
    (g.addOutgoingLinks calls).mem.objects r = some (args.foldl addOutgoingLink a)

theorem links_firstOccurrences (a : Atom) (args : List (Option Nat)) (hout : a.outgoingLinks.Nodup)
    (hin : a.incomingLinks.Nodup) :
    LinksLaw a args ∧ ∀ ops : List Op, (World.init.run ops).graph.OneShare := by
  refine ⟨⟨?_, ?_, ?_, ?_, fun g r calls ha hc => ?_⟩, fun ops => ?_⟩
  · rw [foldl_addOutgoingLink]; exact foldl_addLink_eraseDups hout args
  · rw [foldl_addIncomingLink]; exact foldl_addLink_eraseDups hin args
  · rw [foldl_addOutgoingLink]; exact foldl_addLink_nodup hout args
  · rw [foldl_addIncomingLink]; exact foldl_addLink_nodup hin args
  · rw [Graph.addOutgoingLinks_objects, ha, Option.map_some', hc]
  · exact Graph.oneShare_of_linksNodup (World.run_linksNodup World.init ops fun _ _ h => nomatch h)

theorem construct_links_firstOccurrences :
    (construct .concept "A" 1 1).outgoingLinks.Nodup ∧ (construct .concept "A" 1 1).incomingLinks.Nodup ∧
      ([some 2, none, some 2, some 1].foldl addOutgoingLink (construct .concept "A" 1 1)).outgoingLinks = [2, 1] ∧
      LinksLaw (construct .concept "A" 1 1) [some 2, none, some 2, some 1] ∧
      ∀ ops : List Op, (World.init.run ops).graph.OneShare :=
  ⟨.nil, .nil, rfl, links_firstOccurrences _ _ .nil .nil⟩

end Atom

end CogWsl
