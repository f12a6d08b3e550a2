import KeyedStream.Proto.Layout

/-!
# Rows on the wire

The stored rows of named states, as they are delivered for a key, and the changes to them that are
sent back.
-/

namespace KeyedStream.Wire

open Proto

structure StateEntry where
  key : Bytes := []
  value : Bytes := []
deriving DecidableEq

def StateEntry.layout : Layout StateEntry where
  name := "StateEntry"
  empty := {}
  fields := [
    .single 1 (some "key") .bytes (·.key) fun m v => { m with key := v },
    .single 2 (some "value") .bytes (·.value) fun m v => { m with value := v }]

/-- The stored rows of a named state. -/
structure StateEntryNamespace where
  name : String := ""
  entries : List StateEntry := []
deriving DecidableEq

def StateEntryNamespace.layout : Layout StateEntryNamespace where
  name := "StateEntryNamespace"
  empty := {}
  fields := [
    .single 1 (some "namespace") .text (·.name) fun m v => { m with name := v },
    .single 2 (some "entries") (.repeated StateEntry.layout) (·.entries)
      fun m v => { m with entries := v }]

structure KeyState where
  key : Bytes := []
  stateEntryNamespaces : List StateEntryNamespace := []
deriving DecidableEq

def KeyState.layout : Layout KeyState where
  name := "KeyState"
  empty := {}
  fields := [
    .single 1 (some "key") .bytes (·.key) fun m v => { m with key := v },
    .single 2 (some "state_entry_namespaces") (.repeated StateEntryNamespace.layout)
      (·.stateEntryNamespaces) fun m v => { m with stateEntryNamespaces := v }]

/-- A row to be written. -/
structure PutMutation where
  key : Bytes := []
  value : Bytes := []
deriving DecidableEq

def PutMutation.layout : Layout PutMutation where
  name := "PutMutation"
  empty := {}
  fields := [
    .single 1 (some "key") .bytes (·.key) fun m v => { m with key := v },
    .single 2 (some "value") .bytes (·.value) fun m v => { m with value := v }]

/-- The key of a row to be deleted. -/
structure DeleteMutation where
  key : Bytes := []
deriving DecidableEq

def DeleteMutation.layout : Layout DeleteMutation where
  name := "DeleteMutation"
  empty := {}
  fields := [.single 1 (some "key") .bytes (·.key) fun m v => { m with key := v }]

/-- What a change may be. -/
inductive MutationPayload where
  | put (m : PutMutation)
  | delete (m : DeleteMutation)
deriving DecidableEq

namespace MutationPayload

def put? : MutationPayload → Option PutMutation
  | put m => some m
  | delete _ => none

def delete? : MutationPayload → Option DeleteMutation
  | put _ => none
  | delete m => some m

end MutationPayload

structure StateMutation where
  payload : Option MutationPayload := none
deriving DecidableEq

def StateMutation.layout : Layout StateMutation where
  name := "StateMutation"
  empty := {}
  fields := [
    .oneof "mutation" [
      .message 1 PutMutation.layout .put (·.put?),
      .message 2 DeleteMutation.layout .delete (·.delete?)]
      (·.payload) fun m v => { m with payload := v }]

/-- The changes to the rows of a named state. -/
structure StateMutationNamespace where
  name : String := ""
  mutations : List StateMutation := []
deriving DecidableEq

def StateMutationNamespace.layout : Layout StateMutationNamespace where
  name := "StateMutationNamespace"
  empty := {}
  fields := [
    .single 1 (some "namespace") .text (·.name) fun m v => { m with name := v },
    .single 2 (some "mutations") (.repeated StateMutation.layout) (·.mutations)
      fun m v => { m with mutations := v }]

end KeyedStream.Wire
