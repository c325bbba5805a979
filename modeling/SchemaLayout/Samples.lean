import SchemaLayout.Schema.DefinitionSet

/-!
# Sample schemas

Small sets of definitions of the shape that a query layer generates: `blog` has everything that the
passes care about, `filterVariants` two variants of a filter, `zoo` a name that is taken, and
`single` one model.
-/
namespace SchemaLayout.Samples

/-! ## Parts -/

/-- A field that is neither nullable nor a list. -/
def field (name : String) (type : TypeRef) : Field := ⟨name, type, false, false⟩

/-- A nullable field. -/
def optional (name : String) (type : TypeRef) : Field := ⟨name, type, true, false⟩

/-- The field as a list. -/
def many (field : Field) : Field := { field with isList := true }

/-- A model of an entity of its own name. -/
def model (name : String) (fields : List Field) : TypeDefinition :=
  ⟨name, .model, fields, some name⟩

/-- A shared input. -/
def input (name : String) (fields : List Field) : TypeDefinition := ⟨name, .input, fields, none⟩

/-- An input of an entity. -/
def inputOf (entity name : String) (fields : List Field) : TypeDefinition :=
  ⟨name, .input, fields, some entity⟩

/-- The common fields of filters on a type, where `not` takes the filter `nested`. -/
def filterFields (leaf : TypeRef) (nested : String) : List Field :=
  [optional "equals" leaf, many (optional "in" leaf),
    optional "not" (.ofMembers [.definition nested, leaf])]

/-- A filter on strings. -/
def stringFilter (name nested : String) (more : List Field) : TypeDefinition :=
  input name (filterFields (.scalar .string) nested
    ++ [optional "contains" (.scalar .string)] ++ more)

/-- A filter on whole numbers. -/
def intFilter (name nested : String) : TypeDefinition :=
  input name (filterFields (.scalar .int) nested
    ++ [optional "lt" (.scalar .int), optional "gt" (.scalar .int)])

/-- The operations that update a number. -/
def updateOperations (name : String) (kind : ScalarKind) (nullable : Bool) : TypeDefinition :=
  input name (⟨"set", .scalar kind, nullable, false⟩
    :: ["increment", "decrement", "multiply", "divide"].map (optional · (.scalar kind)))

/-! ## Schemas -/

/-- The types of the blog. -/
def blogTypes : List TypeDefinition :=
  let role := TypeRef.enumeration "Role"
  let sort := TypeRef.enumeration "SortOrder"
  [ model "User" [field "id" (.scalar .int), field "email" (.scalar .string),
      optional "name" (.scalar .string), field "role" role,
      many (field "posts" (.definition "Post"))],
    model "Post" [field "id" (.scalar .int), field "title" (.scalar .string),
      optional "content" (.scalar .string), field "views" (.scalar .int),
      optional "rating" (.scalar .float), field "author" (.definition "User"),
      field "authorId" (.scalar .int)],
    ⟨"Query", .output, [many (field "users" (.definition "User")),
      many (field "posts" (.definition "Post")), optional "post" (.definition "Post")], none⟩,
    ⟨"Mutation", .output, [field "createOnePost" (.definition "Post"),
      optional "updateOnePost" (.definition "Post")], none⟩,
    stringFilter "StringFilter" "NestedStringFilter" [optional "mode" (.enumeration "QueryMode")],
    stringFilter "NestedStringFilter" "NestedStringFilter" [],
    stringFilter "StringNullableFilter" "NestedStringNullableFilter" [],
    stringFilter "NestedStringNullableFilter" "NestedStringNullableFilter" [],
    intFilter "IntFilter" "NestedIntFilter",
    intFilter "NestedIntFilter" "NestedIntFilter",
    input "FloatNullableFilter" (filterFields (.scalar .float) "NestedFloatNullableFilter"),
    input "NestedFloatNullableFilter" (filterFields (.scalar .float) "NestedFloatNullableFilter"),
    input "EnumRoleFilter" (filterFields role "NestedEnumRoleFilter"),
    input "NestedEnumRoleFilter" (filterFields role "NestedEnumRoleFilter"),
    inputOf "User" "UserWhereInput" [many (optional "AND" (.definition "UserWhereInput")),
      optional "id" (.definition "IntFilter"), optional "email" (.definition "StringFilter"),
      optional "name" (.definition "StringNullableFilter"),
      optional "role" (.definition "EnumRoleFilter"),
      optional "posts" (.definition "PostListRelationFilter")],
    inputOf "Post" "PostWhereInput" [many (optional "AND" (.definition "PostWhereInput")),
      optional "id" (.definition "IntFilter"), optional "title" (.definition "StringFilter"),
      optional "content" (.definition "StringNullableFilter"),
      optional "rating" (.definition "FloatNullableFilter"),
      optional "author" (.definition "UserRelationFilter")],
    inputOf "Post" "PostListRelationFilter" [optional "every" (.definition "PostWhereInput"),
      optional "some" (.definition "PostWhereInput"),
      optional "none" (.definition "PostWhereInput")],
    inputOf "User" "UserRelationFilter" [optional "is" (.definition "UserWhereInput"),
      optional "isNot" (.definition "UserWhereInput")],
    inputOf "User" "UserWhereUniqueInput" [optional "id" (.scalar .int)],
    inputOf "Post" "PostWhereUniqueInput" [optional "id" (.scalar .int)],
    inputOf "User" "UserCountOrderByAggregateInput" [optional "id" sort],
    inputOf "Post" "PostCountOrderByAggregateInput" [optional "id" sort],
    updateOperations "IntFieldUpdateOperationsInput" .int false,
    updateOperations "NullableFloatFieldUpdateOperationsInput" .float true,
    input "StringFieldUpdateOperationsInput" [optional "set" (.scalar .string)],
    inputOf "Post" "PostUpdateInput" [
      optional "title"
        (.ofMembers [.scalar .string, .definition "StringFieldUpdateOperationsInput"]),
      optional "views" (.ofMembers [.scalar .int, .definition "IntFieldUpdateOperationsInput"]),
      optional "rating"
        (.ofMembers [.scalar .float, .definition "NullableFloatFieldUpdateOperationsInput"])] ]

/-- Users and posts with filters, update operations, names of root operations and inputs of one
shape. -/
def blog : Except SchemaError DefinitionSet :=
  DefinitionSet.ofLists blogTypes
    [⟨"Role", ["USER", "ADMIN"]⟩, ⟨"SortOrder", ["asc", "desc"]⟩,
      ⟨"QueryMode", ["default", "insensitive"]⟩]

/-- A filter with its nullable variant, and an input that uses both. -/
def filterVariants : Except SchemaError DefinitionSet :=
  DefinitionSet.ofLists
    [ stringFilter "StringFilter" "StringFilter" [],
      stringFilter "NullableStringFilter" "NullableStringFilter" [],
      inputOf "User" "UserWhereInput" [optional "email" (.definition "StringFilter"),
        optional "name" (.definition "NullableStringFilter")] ] []

/-- A model `Zoo` that cannot be renamed to `Zoo2`, which is there already. -/
def zoo : Except SchemaError DefinitionSet :=
  DefinitionSet.ofLists
    [ model "Zoo" [field "id" (.scalar .int)],
      model "Zoo2" [field "id" (.scalar .int)],
      model "Animal" [field "home" (.definition "Zoo")] ] []

/-- One model with one field. -/
def single (name : String) : Except SchemaError DefinitionSet :=
  DefinitionSet.ofLists [model name [field "id" (.scalar .int)]] []

end SchemaLayout.Samples
