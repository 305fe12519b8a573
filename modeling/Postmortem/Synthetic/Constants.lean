/-
Postmortem/Synthetic/Constants.lean

A table of constants made by hand.

`standardTable` is what a 64-bit build exports when it exports everything:
small integers in the upper half of the word, pointers tagged by one, and
properties described by location.  Heaps made by hand follow it.
-/
import Postmortem.Layout
import Std.Data.HashMap

namespace Postmortem.Synthetic

/-! ### Numbers -/

/-! The instance types of the standard build. -/
namespace InstanceType

def twoByteString : Int := 0

def oneByteString : Int := 8

def oneByteCons : Int := 9

def oneByteSliced : Int := 11

def symbol : Int := 128

def heapNumber : Int := 129

def oddball : Int := 131

def map : Int := 132

def fixedArray : Int := 134

def descriptorArray : Int := 135

def scopeInfo : Int := 137

def sharedInfo : Int := 138

def script : Int := 139

def functionContext : Int := 140

def jsObject : Int := 1043

def jsArray : Int := 1047

def jsFunction : Int := 1048

def jsArrayBuffer : Int := 1049

def jsTypedArray : Int := 1050

def jsDate : Int := 1052

end InstanceType

/-- The number of the hole. -/
def theHoleKind : Int := 2

/-- The number of `undefined`. -/
def undefinedKind : Int := 5

/-! ### The standard table -/

/-- The constants of the standard build, by what they describe. -/
def standardConstants : List (String × Int) := [
    -- Words and tags
    ("PointerSizeLog2", 3),
    ("SmiTag", 0),
    ("SmiTagMask", 1),
    ("SmiShiftSize", 31),
    ("HeapObjectTag", 1),
    ("HeapObjectTagMask", 3),
    ("class_HeapObject__map__Map", 0),
    -- Maps
    ("class_Map__instance_size_in_words__char", 8),
    ("class_Map__inobject_properties_start_or_constructor_function_index__char", 9),
    ("class_Map__instance_type__uint16_t", 12),
    ("class_Map__bit_field3__int", 16),
    ("class_Map__constructor_or_backpointer__Object", 24),
    ("class_Map__instance_descriptors__DescriptorArray", 32),
    ("bit_field3_dictionary_map_shift", 21),
    ("bit_field3_number_of_own_descriptors_shift", 10),
    ("bit_field3_number_of_own_descriptors_mask", 1047552),
    -- Objects
    ("class_JSReceiver__raw_properties_or_hash__Object", 8),
    ("class_JSObject__elements__Object", 16),
    ("class_HeapNumber__value__double", 8),
    ("class_JSArray__length__Object", 24),
    ("class_JSFunction__shared__SharedFunctionInfo", 24),
    ("class_JSFunction__context__Context", 32),
    ("class_JSRegExp__source__Object", 32),
    ("class_JSDate__value__Object", 24),
    -- Functions and scripts
    ("class_SharedFunctionInfo__raw_name__Object", 8),
    ("class_SharedFunctionInfo__scope_info__ScopeInfo", 16),
    ("class_SharedFunctionInfo__inferred_name__String", 24),
    ("class_SharedFunctionInfo__script__Object", 32),
    ("class_SharedFunctionInfo__start_position_and_type__int", 40),
    ("class_SharedFunctionInfo__end_position__int", 44),
    ("class_SharedFunctionInfo__internal_formal_parameter_count__uint16_t", 48),
    ("sharedfunctioninfo_start_position_shift", 2),
    ("class_Script__name__Object", 8),
    ("class_Script__line_offset__SMI", 16),
    ("class_Script__source__Object", 24),
    ("class_Script__line_ends__Object", 32),
    -- Strings
    ("StringEncodingMask", 8),
    ("StringRepresentationMask", 7),
    ("OneByteStringTag", 8),
    ("TwoByteStringTag", 0),
    ("SeqStringTag", 0),
    ("ConsStringTag", 1),
    ("ExternalStringTag", 2),
    ("SlicedStringTag", 3),
    ("ThinStringTag", 5),
    ("class_String__length__int32_t", 12),
    ("class_SeqOneByteString__chars__char", 16),
    ("class_SeqTwoByteString__chars__char", 16),
    ("class_ConsString__first__String", 16),
    ("class_ConsString__second__String", 24),
    ("class_SlicedString__parent__String", 16),
    ("class_SlicedString__offset__SMI", 24),
    ("class_ThinString__actual__String", 16),
    -- Fixed arrays
    ("class_FixedArrayBase__length__SMI", 8),
    ("class_FixedTypedArrayBase__base_pointer__Object", 16),
    ("class_FixedTypedArrayBase__external_pointer__uintptr_t", 24),
    -- Oddballs
    ("class_Oddball__kind__SMI", 32),
    ("OddballFalse", 0),
    ("OddballTrue", 1),
    ("OddballTheHole", 2),
    ("OddballNull", 3),
    ("OddballUndefined", 5),
    ("OddballUninitialized", 6),
    ("OddballException", 8),
    -- Buffers
    ("class_JSArrayBuffer__backing_store__uintptr_t", 32),
    ("class_JSArrayBuffer__byte_length__size_t", 40),
    ("class_JSArrayBuffer__bit_field__uint32_t", 48),
    ("jsarray_buffer_was_neutered_mask", 8),
    ("jsarray_buffer_was_neutered_shift", 3),
    ("class_JSArrayBufferView__buffer__Object", 24),
    ("class_JSArrayBufferView__byte_offset__size_t", 32),
    ("class_JSArrayBufferView__byte_length__size_t", 40),
    -- Symbols
    ("class_Symbol__name__Object", 16),
    -- Descriptors
    ("prop_idx_first", 2),
    ("prop_desc_size", 3),
    ("prop_desc_key", 0),
    ("prop_desc_value", 1),
    ("prop_desc_details", 2),
    ("prop_index_mask", 1047552),
    ("prop_index_shift", 10),
    ("prop_representation_mask", 448),
    ("prop_representation_shift", 6),
    ("prop_representation_double", 2),
    ("prop_location_mask", 2),
    ("prop_location_shift", 1),
    ("prop_location_Field", 0),
    ("prop_location_Descriptor", 1),
    -- Dictionaries
    ("class_NameDictionaryShape__entry_size__int", 3),
    ("class_NameDictionaryShape__prefix_start_index__int", 3),
    ("class_NameDictionaryShape__prefix_size__int", 2),
    -- Contexts
    ("class_Context__closure_index__int", 0),
    ("class_Context__previous_index__int", 1),
    ("context_idx_scope_info", 2),
    ("class_Context__min_context_slots__int", 4),
    ("scopeinfo_idx_nparams", 1),
    ("scopeinfo_idx_nstacklocals", 2),
    ("scopeinfo_idx_ncontextlocals", 3),
    ("scopeinfo_idx_first_vars", 4),
    -- Frames
    ("off_fp_context", -8),
    ("off_fp_marker", -8),
    ("off_fp_function", -16),
    ("off_fp_args", 16),
    ("frametype_EntryFrame", 1),
    ("frametype_ConstructEntryFrame", 2),
    ("frametype_ExitFrame", 3),
    ("frametype_OptimizedFrame", 4),
    ("frametype_JavaScriptFrame", 5),
    ("frametype_StubFrame", 6),
    ("frametype_InternalFrame", 8),
    ("frametype_ConstructFrame", 9),
    ("frametype_ArgumentsAdaptorFrame", 10),
    -- Instance types
    ("FirstNonstringType", 128),
    ("FirstJSObjectType", 1040),
    ("FirstContextType", 140),
    ("LastContextType", 145),
    ("type_Symbol__SYMBOL_TYPE", 128),
    ("type_HeapNumber__HEAP_NUMBER_TYPE", 129),
    ("type_Oddball__ODDBALL_TYPE", 131),
    ("type_Map__MAP_TYPE", 132),
    ("type_Code__CODE_TYPE", 133),
    ("type_FixedArray__FIXED_ARRAY_TYPE", 134),
    ("type_DescriptorArray__DESCRIPTOR_ARRAY_TYPE", 135),
    ("type_NameDictionary__NAME_DICTIONARY_TYPE", 136),
    ("type_ScopeInfo__SCOPE_INFO_TYPE", 137),
    ("type_SharedFunctionInfo__SHARED_FUNCTION_INFO_TYPE", 138),
    ("type_Script__SCRIPT_TYPE", 139),
    ("type_JSGlobalProxy__JS_GLOBAL_PROXY_TYPE", 1041),
    ("type_JSGlobalObject__JS_GLOBAL_OBJECT_TYPE", 1042),
    ("type_JSObject__JS_OBJECT_TYPE", 1043),
    ("type_JSAPIObject__JS_API_OBJECT_TYPE", 1044),
    ("type_JSError__JS_ERROR_TYPE", 1046),
    ("type_JSArray__JS_ARRAY_TYPE", 1047),
    ("type_JSFunction__JS_FUNCTION_TYPE", 1048),
    ("type_JSArrayBuffer__JS_ARRAY_BUFFER_TYPE", 1049),
    ("type_JSTypedArray__JS_TYPED_ARRAY_TYPE", 1050),
    ("type_JSRegExp__JS_REGEXP_TYPE", 1051),
    ("type_JSDate__JS_DATE_TYPE", 1052)]

/-- A table of constants. -/
structure ConstantTable where
  target : UInt64
  values : Std.HashMap String Int

namespace ConstantTable

/-- The table of a target that exports nothing. -/
def empty (target : UInt64) : ConstantTable := ⟨target, ∅⟩

/-- The table with another value for a constant. -/
def insert (t : ConstantTable) (name : String) (value : Int) : ConstantTable :=
  { t with values := t.values.insert name value }

/-- The table without a constant. -/
def erase (t : ConstantTable) (name : String) : ConstantTable :=
  { t with values := t.values.erase name }

/-- The table of the standard build. -/
def standard : ConstantTable :=
  standardConstants.foldl (fun t entry => t.insert entry.1 entry.2) (empty 1)

/-- What the table exports: its constants, under their exported names. -/
def exports (t : ConstantTable) : Exports where
  target := t.target
  resolve := fun symbol =>
    if symbol.startsWith (exportedName "") then
      t.values[String.ofList (symbol.toList.drop (exportedName "").length)]?
    else none

end ConstantTable

/-- The layout of the standard build. -/
def standardLayout : Layout := .load ConstantTable.standard.exports

end Postmortem.Synthetic
