import Flowgraph.Text.Quoted

/-!
# Faults

Why an operation on unchecked data, on the run-time state or on a registry cannot be
done. Each cause has one message. What makes a document invalid and what makes a
workflow impossible to compile are told by types of their own.
-/
namespace Flowgraph

inductive Fault where
  | missingKey (key : String)
  | noAttribute (kind name : String)
  | notSubscriptable (kind : String)
  | listIndex
  | textIndex
  | notIterable (kind : String)
  | unhashable (kind : String)
  | noLength (kind : String)
  | pairShape (index : Nat)
  | pairLength (index length : Nat)
  | notNumeric (kind : String)
  | integerText (shown : String)
  | integerTooLong (digits : Nat)
  | infiniteInteger
  | undefinedInteger
  | notText (kind : String)
  | unknownChoice (shown choices : String)
  | badJson
  | tooDeep
  /-- A text that is read has half a surrogate pair; what becomes of it is not told. -/
  | halfPair
  | attempts
  | invalidRef (ref : String)
  | readOnly (namespaceName : String)
  | invalidPattern (shown reason : String)
  | unresolvedPointer (pointer shown : String)
  | unresolvedRef (ref : String)
  | unknownProviderEvent (shown : String)
  | missingRunId
  | badSequenceNumber
  | missingTimestamp
  | duplicateSequenceNumber (seq : Int) (runId : String)
  | sequenceOutOfOrder (seq previous : Int) (runId : String)
  | lowererTaken (nodeType : String)
  | noEmitter (target : String)
  | unknownModel (id : String)
  | templateTaken (id : String)
  | noTemplate (id : String)
  | listenerFailed (text : String)
deriving DecidableEq, Repr

def Fault.message : Fault → String
  | missingKey key => Text.quote key
  | noAttribute kind name => "'" ++ kind ++ "' object has no attribute '" ++ name ++ "'"
  | notSubscriptable kind => "'" ++ kind ++ "' object is not subscriptable"
  | listIndex => "list indices must be integers or slices, not str"
  | textIndex => "string indices must be integers, not 'str'"
  | notIterable kind => "'" ++ kind ++ "' object is not iterable"
  | unhashable kind => "unhashable type: '" ++ kind ++ "'"
  | noLength kind => "object of type '" ++ kind ++ "' has no len()"
  | pairShape index =>
    "cannot convert dictionary update sequence element #" ++ toString index ++ " to a sequence"
  | pairLength index length =>
    "dictionary update sequence element #" ++ toString index ++ " has length " ++
      toString length ++ "; 2 is required"
  | notNumeric kind =>
    "int() argument must be a string, a bytes-like object or a real number, not '" ++ kind ++ "'"
  | integerText shown => "invalid literal for int() with base 10: " ++ shown
  | integerTooLong digits =>
    "Exceeds the limit (4300 digits) for integer string conversion: value has " ++
      toString digits ++ " digits; use sys.set_int_max_str_digits() to increase the limit"
  | infiniteInteger => "cannot convert float infinity to integer"
  | undefinedInteger => "cannot convert float NaN to integer"
  | notText kind => "expected string or bytes-like object, got '" ++ kind ++ "'"
  | unknownChoice shown choices => shown ++ " is not a valid " ++ choices
  | badJson => "not a JSON document"
  | tooDeep => "nested too deeply"
  | halfPair => "half a surrogate pair"
  | attempts => "RetryPolicy.max_attempts must be a positive integer"
  | invalidRef ref => "Invalid state reference: " ++ ref
  | readOnly namespaceName => "Cannot write to read-only namespace: " ++ namespaceName
  | invalidPattern shown reason =>
    "Invalid regex in edge condition: " ++ shown ++ " (" ++ reason ++ ")"
  | unresolvedPointer pointer shown =>
    "PointerToNowhere: " ++ Text.quote pointer ++ " does not exist within " ++ shown ++
      if pointer = "/" then
        ". The pointer '/' is a valid JSON Pointer but it points to an empty string property " ++
          "''. If you intended to point to the entire resource, you should use '#'."
      else ""
  | unresolvedRef ref => "Unresolvable: " ++ ref
  | unknownProviderEvent shown => "Unknown provider event type: " ++ shown
  | missingRunId => "Stream event missing runId"
  | badSequenceNumber => "Stream event seq must be a non-negative integer"
  | missingTimestamp => "Stream event missing timestamp"
  | duplicateSequenceNumber seq runId =>
    "Duplicate seq " ++ toString seq ++ " for run " ++ runId
  | sequenceOutOfOrder seq previous runId =>
    "Out-of-order seq " ++ toString seq ++ " after " ++ toString previous ++ " for run " ++ runId
  | lowererTaken nodeType => "Lowerer already registered for node type: " ++ nodeType
  | noEmitter target => "No emitter registered for target: " ++ target
  | unknownModel id => "Unknown model: " ++ id
  | templateTaken id => "Prompt template already registered: " ++ id
  | noTemplate id => "Prompt template not found: " ++ id
  | listenerFailed text => text

/-- A remark of an operation that went on. -/
inductive Notice where
  | warning (text : String)
  | error (text : String)
deriving DecidableEq, Repr

end Flowgraph
