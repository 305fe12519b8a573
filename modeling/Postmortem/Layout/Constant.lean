/-
Postmortem/Layout/Constant.lean

The catalogue of layout constants.

A V8 build exports constants that describe its heap: tags and masks, type
ids, frame markers, and the offsets of the fields of each kind of object.
Names changed between builds, so every constant is listed with all its
spellings, newest first.  Where a spelling also says how the field's bits are
stored, that storage goes with it.

`Constant.all` is the order in which a layout looks them up, and
`all_ctorIdx` says that it is the order of declaration, so that a table of
entries can be indexed by constant.
-/

namespace Postmortem

/-! ### Storage -/

/-- How the bits of a field are stored. -/
inductive Storage where
  /-- A tagged slot. -/
  | tagged
  /-- A tagged slot that holds a small integer. -/
  | smi
  | int32
  | uint16
  | uint8
  /-- A raw word. -/
  | word
  deriving DecidableEq, Repr, Inhabited

/-- How many bytes a field takes, when a slot takes `pointerSize`. -/
def Storage.width (pointerSize : Nat) : Storage → Nat
  | .tagged | .smi | .word => pointerSize
  | .int32 => 4
  | .uint16 => 2
  | .uint8 => 1

/-! ### Constants -/

/-- A layout constant. -/
inductive Constant where
  | pointerSizeLog2
  | fixedArrayLength | fixedArrayData
  | objectProperties | objectElements | objectInternalFields
  | smiTag | smiTagMask | smiShiftSize
  | heapObjectTag | heapObjectTagMask | heapObjectMap
  | mapInObjectStart | mapInObjectCount | mapInstanceType | mapInstanceAttributes
  | mapConstructor | mapDescriptors | mapBitField3 | mapInstanceSize | mapDictionaryMapShift
  | mapOwnDescriptorsShift | mapOwnDescriptorsMask
  | heapNumberValue
  | arrayLength
  | functionShared | functionContext
  | sharedName | sharedNameOrScopeInfo | sharedInferredName | sharedScript | sharedScopeInfo
  | sharedStartPosition | sharedStartPositionShift | sharedEndPosition | sharedParameterCount
  | scriptName | scriptLineOffset | scriptSource | scriptLineEnds
  | stringEncodingMask | stringRepresentationMask | stringOneByteTag | stringTwoByteTag
  | stringSeqTag | stringConsTag | stringSlicedTag | stringExternalTag | stringThinTag
  | stringLength | stringOneByteChars | stringTwoByteChars | stringConsFirst | stringConsSecond
  | stringSlicedParent | stringSlicedOffset | stringThinActual
  | fixedTypedArrayBasePointer | fixedTypedArrayExternalPointer
  | oddballKind | oddballException | oddballFalse | oddballTrue | oddballUndefined | oddballNull
  | oddballTheHole | oddballUninitialized
  | bufferBackingStore | bufferByteLength | bufferBitField | bufferWasNeuteredMask
  | bufferWasNeuteredShift
  | viewBuffer | viewByteOffset | viewByteLength
  | regExpSource
  | dateValue
  | symbolName
  | descriptorFirstIndex | descriptorEntrySize | descriptorDetailsSlot | descriptorKeySlot
  | descriptorValueSlot | descriptorIndexMask | descriptorIndexShift
  | descriptorRepresentationMask | descriptorRepresentationShift | descriptorRepresentationDouble
  | descriptorTypeMask | descriptorTypeField | descriptorTypeConstField | descriptorTypeConstant
  | descriptorLocationMask | descriptorLocationShift | descriptorLocationField
  | descriptorLocationDescriptor
  | dictionaryEntrySize | dictionaryPrefixStart | dictionaryPrefixSize
  | contextClosureIndex | contextPreviousIndex | contextScopeInfoIndex | contextMinSlots
  | scopeParameterCount | scopeStackLocalCount | scopeContextLocalCount | scopeVariablePart
  | frameContext | frameFunction | frameArgs | frameMarker | frameAdaptor | frameEntry
  | frameEntryConstruct | frameExit | frameInternal | frameConstruct | frameStub
  | frameJavascript | frameOptimized
  | typeFirstNonstring | typeFirstJsObject | typeFirstContext | typeLastContext | typeHeapNumber
  | typeMap | typeGlobalObject | typeGlobalProxy | typeOddball | typeJsObject | typeJsApiObject
  | typeJsSpecialApiObject | typeJsError | typeJsArray | typeCode | typeJsFunction
  | typeFixedArray | typeJsArrayBuffer | typeJsTypedArray | typeJsRegexp | typeJsDate
  | typeSharedFunctionInfo | typeScript | typeScopeInfo | typeSymbol | typeDescriptorArray
  | typeNameDictionary
  deriving DecidableEq, Repr, Inhabited

/-- One name of a constant, with the storage it implies. -/
structure Spelling where
  name : String
  storage : Option Storage
  deriving DecidableEq

/-- What stands in for a constant that no spelling resolves. -/
inductive Fallback where
  /-- Nothing: the constant is missing. -/
  | missing
  | number (value : Int)
  /-- The slot behind another field; missing if that one is. -/
  | slotAfter (base : Constant)
  deriving DecidableEq

namespace Constant

/-- Spellings that say nothing about storage. -/
def unstored (names : List String) : List Spelling := names.map (⟨·, none⟩)

/-- The names a constant has had, newest first. -/
def spellings : Constant → List Spelling
  | .pointerSizeLog2 => unstored ["PointerSizeLog2"]
  | .fixedArrayLength => [⟨"class_FixedArrayBase__length__SMI", some .smi⟩]
  | .fixedArrayData => unstored ["class_FixedArray__data__uintptr_t"]
  | .objectProperties =>
    unstored ["class_JSReceiver__raw_properties_or_hash__Object",
      "class_JSReceiver__properties__FixedArray",
      "class_JSObject__properties__FixedArray"]
  | .objectElements =>
    unstored ["class_JSObject__elements__Object", "class_JSObject__elements__FixedArray"]
  | .objectInternalFields => unstored ["class_JSObject__internal_fields__uintptr_t"]
  | .smiTag => unstored ["SmiTag"]
  | .smiTagMask => unstored ["SmiTagMask"]
  | .smiShiftSize => unstored ["SmiShiftSize"]
  | .heapObjectTag => unstored ["HeapObjectTag"]
  | .heapObjectTagMask => unstored ["HeapObjectTagMask"]
  | .heapObjectMap => unstored ["class_HeapObject__map__Map"]
  | .mapInObjectStart =>
    [⟨"class_Map__inobject_properties_start_or_constructor_function_index__char", some .uint8⟩]
  | .mapInObjectCount =>
    [⟨"class_Map__inobject_properties_or_constructor_function_index__int", some .uint8⟩,
     ⟨"class_Map__inobject_properties__int", some .uint8⟩]
  | .mapInstanceType => [⟨"class_Map__instance_type__uint16_t", some .uint16⟩]
  | .mapInstanceAttributes => [⟨"class_Map__instance_attributes__int", some .uint8⟩]
  | .mapConstructor =>
    unstored ["class_Map__constructor_or_backpointer__Object", "class_Map__constructor__Object"]
  | .mapDescriptors => unstored ["class_Map__instance_descriptors__DescriptorArray"]
  | .mapBitField3 =>
    [⟨"class_Map__bit_field3__int", some .int32⟩,
     ⟨"class_Map__bit_field3__SMI", some .smi⟩]
  | .mapInstanceSize =>
    [⟨"class_Map__instance_size_in_words__char", some .uint8⟩,
     ⟨"class_Map__instance_size__int", some .uint8⟩]
  | .mapDictionaryMapShift =>
    unstored ["bit_field3_dictionary_map_shift", "bit_field3_is_dictionary_map_shift"]
  | .mapOwnDescriptorsShift => unstored ["bit_field3_number_of_own_descriptors_shift"]
  | .mapOwnDescriptorsMask => unstored ["bit_field3_number_of_own_descriptors_mask"]
  | .heapNumberValue => unstored ["class_HeapNumber__value__double"]
  | .arrayLength =>
    [⟨"class_JSArray__length__Object", some .smi⟩,
     ⟨"class_JSArray__length__SMI", some .smi⟩]
  | .functionShared => unstored ["class_JSFunction__shared__SharedFunctionInfo"]
  | .functionContext => unstored ["class_JSFunction__context__Context"]
  | .sharedName =>
    unstored ["class_SharedFunctionInfo__raw_name__Object",
      "class_SharedFunctionInfo__name__Object"]
  | .sharedNameOrScopeInfo => unstored ["class_SharedFunctionInfo__name_or_scope_info__Object"]
  | .sharedInferredName =>
    unstored ["class_SharedFunctionInfo__inferred_name__String",
      "class_SharedFunctionInfo__function_identifier__Object"]
  | .sharedScript =>
    unstored ["class_SharedFunctionInfo__script__Object",
      "class_SharedFunctionInfo__script_or_debug_info__Object"]
  | .sharedScopeInfo => unstored ["class_SharedFunctionInfo__scope_info__ScopeInfo"]
  | .sharedStartPosition =>
    [⟨"class_SharedFunctionInfo__start_position_and_type__int", some .int32⟩,
     ⟨"class_SharedFunctionInfo__start_position_and_type__SMI", some .smi⟩]
  | .sharedStartPositionShift => unstored ["sharedfunctioninfo_start_position_shift"]
  | .sharedEndPosition =>
    [⟨"class_SharedFunctionInfo__end_position__int", some .int32⟩,
     ⟨"class_SharedFunctionInfo__end_position__SMI", some .smi⟩]
  | .sharedParameterCount =>
    [⟨"class_SharedFunctionInfo__internal_formal_parameter_count__uint16_t", some .uint16⟩,
     ⟨"class_SharedFunctionInfo__internal_formal_parameter_count__int", some .int32⟩,
     ⟨"class_SharedFunctionInfo__internal_formal_parameter_count__SMI", some .smi⟩]
  | .scriptName => unstored ["class_Script__name__Object"]
  | .scriptLineOffset => [⟨"class_Script__line_offset__SMI", some .smi⟩]
  | .scriptSource => unstored ["class_Script__source__Object"]
  | .scriptLineEnds => unstored ["class_Script__line_ends__Object"]
  | .stringEncodingMask => unstored ["StringEncodingMask"]
  | .stringRepresentationMask => unstored ["StringRepresentationMask"]
  | .stringOneByteTag => unstored ["OneByteStringTag", "AsciiStringTag"]
  | .stringTwoByteTag => unstored ["TwoByteStringTag"]
  | .stringSeqTag => unstored ["SeqStringTag"]
  | .stringConsTag => unstored ["ConsStringTag"]
  | .stringSlicedTag => unstored ["SlicedStringTag"]
  | .stringExternalTag => unstored ["ExternalStringTag"]
  | .stringThinTag => unstored ["ThinStringTag"]
  | .stringLength =>
    [⟨"class_String__length__int32_t", some .int32⟩,
     ⟨"class_String__length__SMI", some .smi⟩]
  | .stringOneByteChars =>
    unstored ["class_SeqOneByteString__chars__char", "class_SeqAsciiString__chars__char"]
  | .stringTwoByteChars => unstored ["class_SeqTwoByteString__chars__char"]
  | .stringConsFirst => unstored ["class_ConsString__first__String"]
  | .stringConsSecond => unstored ["class_ConsString__second__String"]
  | .stringSlicedParent => unstored ["class_SlicedString__parent__String"]
  | .stringSlicedOffset => [⟨"class_SlicedString__offset__SMI", some .smi⟩]
  | .stringThinActual => unstored ["class_ThinString__actual__String"]
  | .fixedTypedArrayBasePointer => unstored ["class_FixedTypedArrayBase__base_pointer__Object"]
  | .fixedTypedArrayExternalPointer =>
    unstored ["class_FixedTypedArrayBase__external_pointer__Object",
      "class_FixedTypedArrayBase__external_pointer__uintptr_t"]
  | .oddballKind =>
    [⟨"class_Oddball__kind_offset__int", some .smi⟩,
     ⟨"class_Oddball__kind__SMI", some .smi⟩]
  | .oddballException => unstored ["OddballException"]
  | .oddballFalse => unstored ["OddballFalse"]
  | .oddballTrue => unstored ["OddballTrue"]
  | .oddballUndefined => unstored ["OddballUndefined"]
  | .oddballNull => unstored ["OddballNull"]
  | .oddballTheHole => unstored ["OddballTheHole"]
  | .oddballUninitialized => unstored ["OddballUninitialized"]
  | .bufferBackingStore =>
    unstored ["class_JSArrayBuffer__backing_store__Object",
      "class_JSArrayBuffer__backing_store__uintptr_t"]
  | .bufferByteLength =>
    [⟨"class_JSArrayBuffer__byte_length__size_t", some .word⟩,
     ⟨"class_JSArrayBuffer__byte_length__Object", some .smi⟩]
  | .bufferBitField =>
    [⟨"class_JSArrayBuffer__bit_field__uint32_t", some .int32⟩,
     ⟨"class_JSArrayBuffer__bit_field__int", some .int32⟩]
  | .bufferWasNeuteredMask =>
    unstored ["jsarray_buffer_was_neutered_mask", "jsarray_buffer_was_detached_mask"]
  | .bufferWasNeuteredShift =>
    unstored ["jsarray_buffer_was_neutered_shift", "jsarray_buffer_was_detached_shift"]
  | .viewBuffer => unstored ["class_JSArrayBufferView__buffer__Object"]
  | .viewByteOffset =>
    [⟨"class_JSArrayBufferView__byte_offset__size_t", some .word⟩,
     ⟨"class_JSArrayBufferView__raw_byte_offset__Object", some .smi⟩]
  | .viewByteLength =>
    [⟨"class_JSArrayBufferView__byte_length__size_t", some .word⟩,
     ⟨"class_JSArrayBufferView__raw_byte_length__Object", some .smi⟩]
  | .regExpSource => unstored ["class_JSRegExp__source__Object"]
  | .dateValue => unstored ["class_JSDate__value__Object"]
  | .symbolName => unstored ["class_Symbol__name__Object", "class_Symbol__description__Object"]
  | .descriptorFirstIndex => unstored ["prop_idx_first"]
  | .descriptorEntrySize => unstored ["prop_desc_size"]
  | .descriptorDetailsSlot => unstored ["prop_desc_details"]
  | .descriptorKeySlot => unstored ["prop_desc_key"]
  | .descriptorValueSlot => unstored ["prop_desc_value"]
  | .descriptorIndexMask => unstored ["prop_index_mask"]
  | .descriptorIndexShift => unstored ["prop_index_shift"]
  | .descriptorRepresentationMask => unstored ["prop_representation_mask"]
  | .descriptorRepresentationShift => unstored ["prop_representation_shift"]
  | .descriptorRepresentationDouble => unstored ["prop_representation_double"]
  | .descriptorTypeMask => unstored ["prop_type_mask"]
  | .descriptorTypeField => unstored ["prop_type_field"]
  | .descriptorTypeConstField => unstored ["prop_type_const_field"]
  | .descriptorTypeConstant => unstored ["prop_type_constant"]
  | .descriptorLocationMask => unstored ["prop_location_mask"]
  | .descriptorLocationShift => unstored ["prop_location_shift"]
  | .descriptorLocationField => unstored ["prop_location_Field"]
  | .descriptorLocationDescriptor => unstored ["prop_location_Descriptor"]
  | .dictionaryEntrySize =>
    unstored ["class_NameDictionaryShape__entry_size__int", "namedictionaryshape_entry_size"]
  | .dictionaryPrefixStart =>
    unstored ["class_NameDictionaryShape__prefix_start_index__int",
      "namedictionaryshape_prefix_start_index"]
  | .dictionaryPrefixSize =>
    unstored ["class_NameDictionaryShape__prefix_size__int", "namedictionaryshape_prefix_size"]
  | .contextClosureIndex => unstored ["class_Context__closure_index__int", "context_idx_closure"]
  | .contextPreviousIndex => unstored ["class_Context__previous_index__int", "context_idx_prev"]
  | .contextScopeInfoIndex =>
    unstored ["context_idx_scope_info", "class_Context__scope_info_index__int"]
  | .contextMinSlots => unstored ["class_Context__min_context_slots__int", "context_min_slots"]
  | .scopeParameterCount => unstored ["scopeinfo_idx_nparams"]
  | .scopeStackLocalCount => unstored ["scopeinfo_idx_nstacklocals"]
  | .scopeContextLocalCount => unstored ["scopeinfo_idx_ncontextlocals"]
  | .scopeVariablePart => unstored ["scopeinfo_idx_first_vars"]
  | .frameContext => unstored ["off_fp_context"]
  | .frameFunction => unstored ["off_fp_function"]
  | .frameArgs => unstored ["off_fp_args"]
  | .frameMarker => unstored ["off_fp_marker", "off_fp_context_or_frame_type"]
  | .frameAdaptor => unstored ["frametype_ArgumentsAdaptorFrame"]
  | .frameEntry => unstored ["frametype_EntryFrame"]
  | .frameEntryConstruct =>
    unstored ["frametype_ConstructEntryFrame", "frametype_EntryConstructFrame"]
  | .frameExit => unstored ["frametype_ExitFrame"]
  | .frameInternal => unstored ["frametype_InternalFrame"]
  | .frameConstruct => unstored ["frametype_ConstructFrame"]
  | .frameStub => unstored ["frametype_StubFrame"]
  | .frameJavascript => unstored ["frametype_JavaScriptFrame"]
  | .frameOptimized => unstored ["frametype_OptimizedFrame"]
  | .typeFirstNonstring => unstored ["FirstNonstringType"]
  | .typeFirstJsObject => unstored ["FirstJSObjectType", "type_JSObject__FIRST_JS_OBJECT_TYPE"]
  | .typeFirstContext => unstored ["FirstContextType"]
  | .typeLastContext => unstored ["LastContextType"]
  | .typeHeapNumber => unstored ["type_HeapNumber__HEAP_NUMBER_TYPE"]
  | .typeMap => unstored ["type_Map__MAP_TYPE"]
  | .typeGlobalObject =>
    unstored ["type_JSGlobalObject__JS_GLOBAL_OBJECT_TYPE",
      "type_GlobalObject__GLOBAL_OBJECT_TYPE"]
  | .typeGlobalProxy => unstored ["type_JSGlobalProxy__JS_GLOBAL_PROXY_TYPE"]
  | .typeOddball => unstored ["type_Oddball__ODDBALL_TYPE"]
  | .typeJsObject => unstored ["type_JSObject__JS_OBJECT_TYPE"]
  | .typeJsApiObject =>
    unstored ["type_JSAPIObject__JS_API_OBJECT_TYPE", "type_JSObject__JS_API_OBJECT_TYPE"]
  | .typeJsSpecialApiObject => unstored ["type_JSSpecialAPIObject__JS_SPECIAL_API_OBJECT_TYPE"]
  | .typeJsError => unstored ["type_JSError__JS_ERROR_TYPE"]
  | .typeJsArray => unstored ["type_JSArray__JS_ARRAY_TYPE"]
  | .typeCode => unstored ["type_Code__CODE_TYPE"]
  | .typeJsFunction => unstored ["type_JSFunction__JS_FUNCTION_TYPE"]
  | .typeFixedArray => unstored ["type_FixedArray__FIXED_ARRAY_TYPE"]
  | .typeJsArrayBuffer => unstored ["type_JSArrayBuffer__JS_ARRAY_BUFFER_TYPE"]
  | .typeJsTypedArray => unstored ["type_JSTypedArray__JS_TYPED_ARRAY_TYPE"]
  | .typeJsRegexp => unstored ["type_JSRegExp__JS_REGEXP_TYPE", "type_JSRegExp__JS_REG_EXP_TYPE"]
  | .typeJsDate => unstored ["type_JSDate__JS_DATE_TYPE"]
  | .typeSharedFunctionInfo => unstored ["type_SharedFunctionInfo__SHARED_FUNCTION_INFO_TYPE"]
  | .typeScript => unstored ["type_Script__SCRIPT_TYPE"]
  | .typeScopeInfo => unstored ["type_ScopeInfo__SCOPE_INFO_TYPE"]
  | .typeSymbol => unstored ["type_Symbol__SYMBOL_TYPE"]
  | .typeDescriptorArray => unstored ["type_DescriptorArray__DESCRIPTOR_ARRAY_TYPE"]
  | .typeNameDictionary => unstored ["type_NameDictionary__NAME_DICTIONARY_TYPE"]

/-- The spelling a constant is known by. -/
def canonical (c : Constant) : Spelling := c.spellings.headD ⟨"", none⟩

/-- The name a constant is known by. -/
def name (c : Constant) : String := c.canonical.name

/-- What stands in for a constant that does not resolve. -/
def fallback : Constant → Fallback
  | .fixedArrayData => .slotAfter .fixedArrayLength
  | .objectInternalFields => .slotAfter .objectElements
  | .smiTag => .number 0
  | .smiTagMask => .number 1
  | .smiShiftSize => .number 31
  | .heapObjectTag => .number 1
  | .heapObjectTagMask => .number 3
  | .sharedStartPositionShift => .number 0
  | .bufferWasNeuteredShift => .number 0
  | .descriptorLocationShift => .number 0
  | .dictionaryPrefixStart => .number 0
  | _ => .missing

/-- The constant that makes this one superfluous when it resolves. -/
def supersededBy : Constant → Option Constant
  | .mapInObjectCount => some .mapInObjectStart
  | _ => none

/-! ### The catalogue -/

/-- The constants by the part of the process they describe, each with its name there, in the order
in which they are looked up. -/
def groups : List (String × List (String × Constant)) := [
    ("common", [
      ("pointer_size_log2", .pointerSizeLog2)]),
    ("fixed_array", [
      ("length", .fixedArrayLength), ("data", .fixedArrayData)]),
    ("js_object", [
      ("properties", .objectProperties), ("elements", .objectElements),
      ("internal_fields", .objectInternalFields)]),
    ("smi", [
      ("tag", .smiTag), ("tag_mask", .smiTagMask), ("shift_size", .smiShiftSize)]),
    ("heap_object", [
      ("tag", .heapObjectTag), ("tag_mask", .heapObjectTagMask), ("map", .heapObjectMap)]),
    ("map", [
      ("in_object_start", .mapInObjectStart), ("in_object_count", .mapInObjectCount),
      ("instance_type", .mapInstanceType), ("instance_attributes", .mapInstanceAttributes),
      ("constructor", .mapConstructor), ("descriptors", .mapDescriptors),
      ("bit_field3", .mapBitField3), ("instance_size", .mapInstanceSize),
      ("dictionary_map_shift", .mapDictionaryMapShift),
      ("own_descriptors_shift", .mapOwnDescriptorsShift),
      ("own_descriptors_mask", .mapOwnDescriptorsMask)]),
    ("heap_number", [
      ("value", .heapNumberValue)]),
    ("js_array", [
      ("length", .arrayLength)]),
    ("js_function", [
      ("shared", .functionShared), ("context", .functionContext)]),
    ("shared_info", [
      ("name", .sharedName), ("name_or_scope_info", .sharedNameOrScopeInfo),
      ("inferred_name", .sharedInferredName), ("script", .sharedScript),
      ("scope_info", .sharedScopeInfo), ("start_position", .sharedStartPosition),
      ("start_position_shift", .sharedStartPositionShift), ("end_position", .sharedEndPosition),
      ("parameter_count", .sharedParameterCount)]),
    ("script", [
      ("name", .scriptName), ("line_offset", .scriptLineOffset), ("source", .scriptSource),
      ("line_ends", .scriptLineEnds)]),
    ("string", [
      ("encoding_mask", .stringEncodingMask), ("representation_mask", .stringRepresentationMask),
      ("one_byte_tag", .stringOneByteTag), ("two_byte_tag", .stringTwoByteTag),
      ("seq_tag", .stringSeqTag), ("cons_tag", .stringConsTag), ("sliced_tag", .stringSlicedTag),
      ("external_tag", .stringExternalTag), ("thin_tag", .stringThinTag),
      ("length", .stringLength), ("one_byte_chars", .stringOneByteChars),
      ("two_byte_chars", .stringTwoByteChars), ("cons_first", .stringConsFirst),
      ("cons_second", .stringConsSecond), ("sliced_parent", .stringSlicedParent),
      ("sliced_offset", .stringSlicedOffset), ("thin_actual", .stringThinActual)]),
    ("fixed_typed_array", [
      ("base_pointer", .fixedTypedArrayBasePointer),
      ("external_pointer", .fixedTypedArrayExternalPointer)]),
    ("oddball", [
      ("kind", .oddballKind), ("exception", .oddballException), ("false_", .oddballFalse),
      ("true_", .oddballTrue), ("undefined", .oddballUndefined), ("null", .oddballNull),
      ("the_hole", .oddballTheHole), ("uninitialized", .oddballUninitialized)]),
    ("array_buffer", [
      ("backing_store", .bufferBackingStore), ("byte_length", .bufferByteLength),
      ("bit_field", .bufferBitField), ("was_neutered_mask", .bufferWasNeuteredMask),
      ("was_neutered_shift", .bufferWasNeuteredShift)]),
    ("array_buffer_view", [
      ("buffer", .viewBuffer), ("byte_offset", .viewByteOffset),
      ("byte_length", .viewByteLength)]),
    ("regexp", [
      ("source", .regExpSource)]),
    ("date", [
      ("value", .dateValue)]),
    ("symbol", [
      ("name", .symbolName)]),
    ("descriptor_array", [
      ("first_index", .descriptorFirstIndex), ("entry_size", .descriptorEntrySize),
      ("details_slot", .descriptorDetailsSlot), ("key_slot", .descriptorKeySlot),
      ("value_slot", .descriptorValueSlot), ("index_mask", .descriptorIndexMask),
      ("index_shift", .descriptorIndexShift),
      ("representation_mask", .descriptorRepresentationMask),
      ("representation_shift", .descriptorRepresentationShift),
      ("representation_double", .descriptorRepresentationDouble),
      ("type_mask", .descriptorTypeMask), ("type_field", .descriptorTypeField),
      ("type_const_field", .descriptorTypeConstField),
      ("type_constant", .descriptorTypeConstant), ("location_mask", .descriptorLocationMask),
      ("location_shift", .descriptorLocationShift), ("location_field", .descriptorLocationField),
      ("location_descriptor", .descriptorLocationDescriptor)]),
    ("name_dictionary", [
      ("entry_size", .dictionaryEntrySize), ("prefix_start", .dictionaryPrefixStart),
      ("prefix_size", .dictionaryPrefixSize)]),
    ("context", [
      ("closure_index", .contextClosureIndex), ("previous_index", .contextPreviousIndex),
      ("scope_info_index", .contextScopeInfoIndex), ("min_context_slots", .contextMinSlots)]),
    ("scope_info", [
      ("parameter_count", .scopeParameterCount), ("stack_local_count", .scopeStackLocalCount),
      ("context_local_count", .scopeContextLocalCount), ("variable_part", .scopeVariablePart)]),
    ("frame", [
      ("context", .frameContext), ("function", .frameFunction), ("args", .frameArgs),
      ("marker", .frameMarker), ("adaptor", .frameAdaptor), ("entry", .frameEntry),
      ("entry_construct", .frameEntryConstruct), ("exit", .frameExit),
      ("internal", .frameInternal), ("construct", .frameConstruct), ("stub", .frameStub),
      ("javascript", .frameJavascript), ("optimized", .frameOptimized)]),
    ("types", [
      ("first_nonstring", .typeFirstNonstring), ("first_js_object", .typeFirstJsObject),
      ("first_context", .typeFirstContext), ("last_context", .typeLastContext),
      ("heap_number", .typeHeapNumber), ("map", .typeMap), ("global_object", .typeGlobalObject),
      ("global_proxy", .typeGlobalProxy), ("oddball", .typeOddball),
      ("js_object", .typeJsObject), ("js_api_object", .typeJsApiObject),
      ("js_special_api_object", .typeJsSpecialApiObject), ("js_error", .typeJsError),
      ("js_array", .typeJsArray), ("code", .typeCode), ("js_function", .typeJsFunction),
      ("fixed_array", .typeFixedArray), ("js_array_buffer", .typeJsArrayBuffer),
      ("js_typed_array", .typeJsTypedArray), ("js_regexp", .typeJsRegexp),
      ("js_date", .typeJsDate), ("shared_function_info", .typeSharedFunctionInfo),
      ("script", .typeScript), ("scope_info", .typeScopeInfo), ("symbol", .typeSymbol),
      ("descriptor_array", .typeDescriptorArray), ("name_dictionary", .typeNameDictionary)])]

/-- All constants, in the order in which they are looked up. -/
def all : List Constant := groups.flatMap fun g => g.2.map (·.2)

theorem all_ctorIdx (c : Constant) : all[c.ctorIdx]? = some c := by
  cases c <;> rfl

theorem mem_all (c : Constant) : c ∈ all :=
  List.mem_of_getElem? (all_ctorIdx c)

end Constant

end Postmortem
