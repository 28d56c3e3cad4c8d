import StepTrace.Script.Place
import StepTrace.Text.Debugged

/-!
What can be wrong with a source text. A fault is a cause and the offset it is reported at; the wording
of every cause is in `Cause.message`.
-/
namespace StepTrace.Script

inductive Cause where
  -- the end of the text, and tokens out of place
  | endOfText
  | expected (wanted got : String)
  | unexpected (got wanted : String)
  | unexpectedSuggesting (candidates : List String)
  | expectedExpression
  | expectedIdentifier
  | missingIdentifier
  | expectedSemicolon
  | expectedStatementEnd
  | mergeConflict
  -- characters and literals
  | unexpectedCharacter (c : Char)
  | unterminatedComment
  | unterminatedString
  | unterminatedRegex
  | unterminatedTemplate
  | unterminatedJsx
  | expectedUnicodeEscape
  | invalidUnicodeEscape
  | badEscape (wanted : String)
  | invalidStringEscape
  | invalidIdentifierCharacter
  | escapedReservedWord (word : String)
  | expectedDigit (radix : Nat)
  | missingExponent
  | misplacedSeparator
  | identifierAfterNumber
  | legacyDecimal
  | legacyOctal
  | legacyOctalInTyped
  | legacyComment
  | unknownRegexFlags
  | repeatedRegexFlag (flag : String)
  -- names
  | reservedInStrict (word : String)
  | awaitInAsync
  | bindsEvalOrArguments
  | argumentsInField
  | usesArguments

  | spaceAfterHash
  -- expressions
  | invalidAssignTarget
  | notAssignable
  | cannotAssign
  | notAPattern
  | assignedShorthand
  | unaryBeforePower
  | mixedNullish
  | arrowNotAllowed
  | breakBeforeArrow
  | emptyParens
  | spreadInParens
  | chainAfterNew
  | superCall
  | superAccess
  | superOptional
  | superPrivate
  | templateInChain
  | importCall
  | importTrailingComma
  | newTarget
  | importMetaInScript
  | awaitStar
  | awaitInFunction
  | awaitInParameters
  | yieldInParameters
  | deleteIdentifier
  | deleteNonProperty
  | nonNullNotAllowed (word : String)
  -- patterns and parameters
  | restNotLast
  | commaAfterRest
  | restNotLastParameter
  | restWithDefault
  | restOptional
  | spreadWithoutName
  | optionalPattern
  | optionalWithDefault
  | typeAfterDefault
  | patternWithoutInit
  | constWithoutInit
  | directiveWithPatterns
  | getterParameters
  | setterParameters
  | restInSetter
  -- statements
  | declarationNotAllowed
  | returnNotAllowed
  | breakOutside
  | breakLabel
  | continueOutside
  | continueLabel
  | repeatedLabel (label : String)
  | labelledFunctionInStrict
  | labelledGenerator
  | withInStrict
  | withInTyped
  | breakAfterThrow
  | repeatedDefault
  | manyLoopBindings
  | loopInitializer
  | awaitNotOf
  | asyncInForOf
  | trailingComma
  | emptyDeclarationList
  | moduleSyntaxInside
  | awaitInScript
  | usingNotEnabled
  | usingNotAllowed
  | usingInForIn
  | usingPattern
  | usingWithoutInit
  -- modules
  | exportWithoutFrom (name : String)
  | exportedStringWithoutFrom
  | importedString (value : String)
  | typeOnImportedName
  | typeOnExportedName
  -- classes
  | repeatedConstructor
  | fieldNamedConstructor
  | privateConstructor
  | generatorConstructor
  | asyncConstructor
  | accessorConstructor
  | readonlyMethod
  | readonlyAccessor
  | decoratorBeforeExport
  | exportAfterDecorator
  | decoratorsTwice
  -- JSX
  | closingFragment
  | closingElement (name : String)
  | emptyJsxAttribute
  | invalidJsxValue
  -- TypeScript
  | modifierOrder (first second : String)
  | modifierTwice (word : String)
  | modifierNotAllowed
  | modifierWith (first second : String)
  | modifierOnConstructor (word : String)
  | modifierOnTypeParameter (word : String)
  | modifierOnlyOnDeclared (word : String)
  | modifierOnlyOnFunction (word : String)
  | modifierOnPrivate
  | privateNameModifier (word : String)
  | declareOnMethod
  | declareInAmbient
  | asyncModifier
  | abstractNotAllowed
  | abstractImplementation
  | abstractInitializer
  | abstractOutsideAbstract
  | overrideWithoutParent
  | constructorTypeParameters
  | constructorReturnType
  | emptyTypeParameters
  | indexSignatureParameters
  | ambientImplementation
  | parameterProperty
  | parameterPropertyPattern
  | ambientDefault
  | optionalMember
  | commaInKey
  | extendsTwice
  | extendsAfterImplements
  | extendsMany
  | implementsTwice
  | heritageNotName
  | className
  | interfaceName
  | enumComputedKey
  | enumNumericKey
  | loopVariableTyped
  | forInPattern
  | importTypeArgument
  | requiredAfterOptional
  | privateInInterface
deriving DecidableEq, Repr, Inhabited

namespace Cause

def radixName : Nat → String
  | 2 => "a binary"
  | 8 => "an octal"
  | 10 => "a decimal"
  | _ => "a hexadecimal"

/-- The wording of a cause. -/
def message : Cause → String
  | endOfText => "Unexpected eof"
  | expected wanted got => "Expected '" ++ wanted ++ "', got '" ++ got ++ "'"
  | unexpected got wanted => "Unexpected token `" ++ got ++ "`. Expected " ++ wanted
  | unexpectedSuggesting cs =>
    "Unexpected token. Did you mean " ++ String.intercalate " or " cs ++ "?"
  | expectedExpression => "Expression expected"
  | expectedIdentifier => "Expected ident"
  | missingIdentifier => "Expected an identifier"
  | expectedSemicolon => "Expected a semicolon"
  | expectedStatementEnd => "Expected ';', '\x7d' or <eof>"
  | mergeConflict => "Merge conflict marker encountered."
  | unexpectedCharacter c => "Unexpected character " ++ Text.quotedChar c
  | unterminatedComment => "Unterminated block comment"
  | unterminatedString => "Unterminated string constant"
  | unterminatedRegex => "Unterminated regexp literal"
  | unterminatedTemplate => "Unterminated template"
  | unterminatedJsx => "Unterminated JSX contents"
  | expectedUnicodeEscape => "Expected unicode escape"
  | invalidUnicodeEscape => "Invalid unicode escape"
  | badEscape wanted => "Bad character escape sequence, expected " ++ wanted
  | invalidStringEscape => "Invalid string escape"
  | invalidIdentifierCharacter => "Invalid character in identifier"
  | escapedReservedWord w => "Unexpected escape sequence in reserved word: " ++ w
  | expectedDigit r => "Expected " ++ radixName r ++ " digit"
  | missingExponent => "Expected +, - or decimal digit after e"
  | misplacedSeparator => "A numeric separator is only allowed between two digits"
  | identifierAfterNumber => "Identifier cannot follow number"
  | legacyDecimal => "Legacy decimal escape is not permitted in strict mode"
  | legacyOctal => "Legacy octal escape is not permitted in strict mode"
  | legacyOctalInTyped =>
    "Legacy octal literals are not available when targeting ECMAScript 5 and higher"
  | legacyComment => "Legacy comments cannot be used in module code"
  | unknownRegexFlags => "Unknown regular expression flags."
  | repeatedRegexFlag f => "Duplicated regular expression flag '" ++ f ++ "'."
  | reservedInStrict w => "`" ++ w ++ "` cannot be used as an identifier in strict mode"
  | awaitInAsync => "`await` cannot be used as an identifier in an async context"
  | bindsEvalOrArguments =>
    "'eval' and 'arguments' cannot be used as a binding identifier in strict mode"
  | argumentsInField => "'arguments' is only allowed in functions and class methods"
  | usesArguments => "Invalid use of 'arguments' in strict mode"

  | spaceAfterHash => "Unexpected space between # and identifier"
  | invalidAssignTarget => "Invalid assignment target"
  | notAssignable =>
    "The left-hand side of an assignment expression must be a variable or a property access."
  | cannotAssign => "Cannot assign to this"
  | notAPattern => "Not a pattern"
  | assignedShorthand => "assignment property is invalid syntax"
  | unaryBeforePower => "'**' cannot be applied to unary/await expression."
  | mixedNullish =>
    "Nullish coalescing operator(??) requires parens when mixing with logical operators"
  | arrowNotAllowed => "An arrow function is not allowed here"
  | breakBeforeArrow => "Unexpected line break between arrow head and arrow"
  | emptyParens => "Parenthesized expression cannot be empty"
  | spreadInParens => "Parenthesized expression cannot contain spread operator"
  | chainAfterNew => "Constructor in/after an optional chaining is not allowed."
  | superCall => "Invalid `super()`"
  | superAccess => "Invalid access to super"
  | superOptional => "Super call cannot be optional"
  | superPrivate => "Index super with private name is not allowed"
  | templateInChain => "Tagged template literals are not allowed in optional chaining."
  | importCall => "Import is not allowed here"
  | importTrailingComma => "Trailing comma is disallowed inside import(...) arguments"
  | newTarget =>
    "'new.target' is only allowed in the body of a function declaration, function expression, or class."
  | importMetaInScript => "'import.meta' cannot be used outside of module code."
  | awaitStar =>
    "await* has been removed from the async functions proposal. Use Promise.all() instead."
  | awaitInFunction => "await isn't allowed in non-async function"
  | awaitInParameters => "`await` expressions cannot be used in a parameter initializer."
  | yieldInParameters => "'yield' cannot be used as a parameter within generator"
  | deleteIdentifier => "'delete' cannot be called on an identifier in strict mode"
  | deleteNonProperty => "The operand of a delete operator must be a property reference."
  | nonNullNotAllowed w =>
    "Typescript non-null assertion operator is not allowed with '" ++ w ++ "'"
  | restNotLast => "Rest element must be final element"
  | commaAfterRest => "Trailing comma isn't permitted after a rest element"
  | restNotLastParameter => "A rest parameter must be last in a parameter list"
  | restWithDefault => "A rest parameter cannot have an initializer"
  | restOptional => "A rest parameter cannot be optional"
  | spreadWithoutName => "`...` must be followed by an identifier in declaration contexts"
  | optionalPattern =>
    "A binding pattern parameter cannot be optional in an implementation signature."
  | optionalWithDefault => "Parameter cannot have question mark and initializer"
  | typeAfterDefault => "Type annotations must come before default assignments"
  | patternWithoutInit => "Destructuring bindings require initializers"
  | constWithoutInit => "'const' declarations must be initialized"
  | directiveWithPatterns =>
    "Illegal 'use strict' directive in function with non-simple parameter list."
  | getterParameters => "A `get` accessor cannot have parameters"
  | setterParameters => "A `set` accessor must have exactly one parameter"
  | restInSetter => "Rest pattern is not allowed in setter"
  | declarationNotAllowed => "Declaration is not allowed"
  | returnNotAllowed => "Return statement is not allowed here"
  | breakOutside =>
    "A 'break' statement can only be used within an enclosing iteration or switch statement"
  | breakLabel => "A 'break' statement can only jump to a label of an enclosing statement"
  | continueOutside =>
    "A 'continue' statement can only jump to a label of an enclosing iteration statement"
  | continueLabel => "Jump target cannot cross function boundary"
  | repeatedLabel l => "Label " ++ l ++ " is already declared"
  | labelledFunctionInStrict =>
    "In strict mode code, functions can only be declared at top level or inside a block."
  | labelledGenerator => "Generator or async function cannot be labelled"
  | withInStrict => "With statement are not allowed in strict mode"
  | withInTyped =>
    "The 'with' statement is not supported. All symbols in a 'with' block will have type 'any'."
  | breakAfterThrow => "LineBreak cannot follow 'throw'"
  | repeatedDefault => "A switch block cannot have multiple defaults"
  | manyLoopBindings => "Expected one variable binding"
  | loopInitializer => "Unexpected initializer in for in/of loop"
  | awaitNotOf => "for await syntax is valid only for for-of statement"
  | asyncInForOf => "The left-hand side of a `for...of` statement may not be `async`"
  | trailingComma => "Trailing comma is not allowed"
  | emptyDeclarationList => "Variable declaration list cannot be empty"
  | moduleSyntaxInside => "'import', and 'export' cannot be used outside of module code"
  | awaitInScript => "top level await is only allowed in module"
  | usingNotEnabled =>
    "Using declaration is not enabled. Set jsc.parser.explicitResourceManagement to true"
  | usingNotAllowed => "Using declaration is not allowed here"
  | usingInForIn => "Using declaration is not allowed in for-in loop"
  | usingPattern => "Using declaration only allows identifiers"
  | usingWithoutInit => "Using declaration requires initializer"
  | exportWithoutFrom n => "`" ++ n ++ "` cannot be used without `from` clause"
  | exportedStringWithoutFrom =>
    "A string literal cannot be used as an exported binding without `from`."
  | importedString v =>
    "A string literal cannot be used as an imported binding.\n- Did you mean `import \x7b \"" ++ v
      ++ "\" as foo \x7d`?"
  | typeOnImportedName =>
    "The 'type' modifier cannot be used on a named import when 'import type' is used on its import statement."
  | typeOnExportedName =>
    "The 'type' modifier cannot be used on a named export when 'export type' is used on its export statement."
  | repeatedConstructor => "A class can only have one constructor"
  | fieldNamedConstructor => "Classes may not have a non-static field named 'constructor'"
  | privateConstructor => "Classes can't have a private field named '#constructor'."
  | generatorConstructor => "A constructor cannot be generator"
  | asyncConstructor => "Constructor can't be an async function"
  | accessorConstructor => "Class constructor can't be an accessor"
  | readonlyMethod => "A method cannot be readonly"
  | readonlyAccessor => "A getter or a setter cannot be readonly"
  | decoratorBeforeExport =>
    "Using the export keyword between a decorator and a class is not allowed. Please use `export @dec class` instead."
  | exportAfterDecorator => "`export` is not allowed here"
  | decoratorsTwice =>
    "Decorators may not appear after `export` or `export default` if they also appear before `export`."
  | closingFragment => "Expected corresponding JSX closing tag for <>"
  | closingElement n => "Expected corresponding JSX closing tag for <" ++ n ++ ">"
  | emptyJsxAttribute => "JSX attributes must only be assigned a non-empty expression"
  | invalidJsxValue => "JSX value should be either an expression or a quoted JSX text"
  | modifierOrder a b => "'" ++ a ++ "' modifier must precede '" ++ b ++ "' modifier."
  | modifierTwice w => "'" ++ w ++ "' modifier already seen."
  | modifierNotAllowed => "Modifiers cannot appear here"
  | modifierWith a b => "'" ++ a ++ "' modifier cannot be used with '" ++ b ++ "' modifier."
  | modifierOnConstructor w =>
    "'" ++ w ++ "' modifier cannot appear on a constructor declaration"
  | modifierOnTypeParameter w => "'" ++ w ++ "' modifier cannot appear on a type parameter"
  | modifierOnlyOnDeclared w =>
    "'" ++ w ++ "' modifier can only appear on a type parameter of a class, interface or type alias"
  | modifierOnlyOnFunction w =>
    "'" ++ w ++ "' modifier can only appear on a type parameter of a function, method or class"
  | modifierOnPrivate => "An accessibility modifier cannot be used with a private identifier."
  | privateNameModifier w =>
    "'" ++ w ++ "' modifier cannot be used with a private identifier"
  | declareOnMethod => "`declare` modifier cannot appear on class elements of this kind"
  | declareInAmbient => "`declare` modifier not allowed for code already in an ambient context"
  | asyncModifier => "`async` modifier cannot be used here"
  | abstractNotAllowed =>
    "`abstract` modifier can only appear on a class or method declaration"
  | abstractImplementation => "Abstract method cannot have an implementation."
  | abstractInitializer => "Abstract property cannot have an initializer."
  | abstractOutsideAbstract => "Abstract methods can only appear within an abstract class."
  | overrideWithoutParent =>
    "This member cannot have an 'override' modifier because its containing class does not extend another class."
  | constructorTypeParameters => "Type parameters cannot appear on a constructor declaration"
  | constructorReturnType => "Type annotation cannot appear on a constructor declaration."
  | emptyTypeParameters => "Type parameter list cannot be empty"

  | indexSignatureParameters => "An index signature must have exactly one parameter"
  | ambientImplementation => "An implementation cannot be declared in ambient contexts"
  | parameterProperty => "A parameter property is only allowed in a constructor implementation"
  | parameterPropertyPattern => "Typescript parameter property must be an identifier or assignment pattern"
  | ambientDefault =>
    "A parameter initializer is only allowed in a function or constructor implementation"
  | optionalMember => "An object member cannot be declared optional"
  | commaInKey => "A comma expression is not allowed in a computed property name"
  | extendsTwice => "`extends` clause already seen."
  | extendsAfterImplements => "'extends' clause must precede 'implements' clause."
  | extendsMany => "Classes can only extend a single class"
  | implementsTwice => "`implements` clause already seen"
  | heritageNotName =>
    "An interface can only extend an identifier/qualified-name with optional type arguments."
  | className => "Invalid class name"
  | interfaceName => "interface name is invalid"
  | enumComputedKey => "Computed property names are not allowed in enums"
  | enumNumericKey => "An enum member cannot have a numeric name"
  | loopVariableTyped =>
    "The left-hand side of a 'for...of' statement cannot use a type annotation"
  | forInPattern => "The left-hand side of a 'for...in' statement cannot be a destructuring pattern"
  | importTypeArgument => "String literal expected"
  | requiredAfterOptional => "A required element cannot follow an optional element."
  | privateInInterface => "private names are not allowed in interface"

/-- The tag of a cause that can take the place of a token, with what it holds. -/
def tag : Cause → String
  | unexpectedCharacter c => "UnexpectedChar \x7b c: " ++ Text.quotedChar c ++ " \x7d"
  | mergeConflict => "TS1185"
  | unterminatedRegex => "UnterminatedRegExp"
  | unterminatedTemplate => "UnterminatedTpl"
  | unterminatedJsx => "UnterminatedJSXContents"
  | expectedUnicodeEscape => "ExpectedUnicodeEscape"
  | invalidUnicodeEscape => "InvalidUnicodeEscape"
  | invalidStringEscape => "InvalidStrEscape"
  | badEscape wanted =>
    "BadCharacterEscapeSequence \x7b expected: " ++ Text.debugged wanted ++ " \x7d"
  | escapedReservedWord w => "EscapeInReservedWord \x7b word: " ++ Text.debugged w ++ " \x7d"
  | expectedDigit r => "ExpectedDigit \x7b radix: " ++ toString r ++ " \x7d"
  | missingExponent => "NumLitTerminatedWithExp"
  | identifierAfterNumber => "IdentAfterNum"
  | legacyOctal => "LegacyOctal"
  | _ => ""

end Cause

/-- Something wrong, and the offset where it is reported. -/
structure Fault where
  offset : Nat
  cause : Cause
deriving DecidableEq, Repr, Inhabited

/-- The characters that a fault is about; the scanner had read up to `reached` when it met the fault. -/
def Fault.span (f : Fault) (reached : Nat) : Span :=
  match f.cause with
  | .unexpectedCharacter _ | .expectedUnicodeEscape | .invalidStringEscape => ⟨f.offset, f.offset⟩
  | .mergeConflict => ⟨f.offset, f.offset + 7⟩
  | _ => ⟨f.offset, reached⟩

end StepTrace.Script
