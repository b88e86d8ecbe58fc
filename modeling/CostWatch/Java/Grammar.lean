import CostWatch.Grammar.Tables
import CostWatch.Java.Part
import CostWatch.Java.Terminal

/-!
The grammar of Java texts.

It is more lenient than the language: statements and methods may stand at the top level, imports and
packages in any order, any name on a constructor, and a method may have a body or none wherever it
stands. Ranks follow the precedence of operators. Where a text can be read as a type with arguments
or as comparisons, the weight of such a type makes it the type.
-/

set_option autoImplicit false

namespace CostWatch.Java

open Grammar

abbrev Phrases := Rule Terminal Part

namespace Phrases

open Rule

/-! Building blocks -/

def word (text : String) : Phrases := terminal (.word text)

def symbol (text : String) : Phrases := terminal (.symbol text)

/-- A name that is no keyword where it stands. -/
def name : Phrases := terminal .name

def words (texts : List String) : Phrases := oneOf (texts.map word)

def symbols (texts : List String) : Phrases := oneOf (texts.map symbol)

def between (first last : String) (rule : Phrases) : Phrases :=
  inOrder [symbol first, rule, symbol last]

def listed (rule : Phrases) (more : Part) : Phrases :=
  inOrder [rule, maybe more]

def joined (text : String) (rule : Phrases) : Phrases :=
  inOrder [symbol text, rule]

def level (n : Int) (rule : Phrases) : Phrases := ranked { level := n } rule

def toLeft (n : Int) (rule : Phrases) : Phrases :=
  ranked { level := n, side := some .left } rule

def toRight (n : Int) (rule : Phrases) : Phrases :=
  ranked { level := n, side := some .right } rule

/-- Something that is never read. Its beginning is reserved: where it could stand, no other reading
of the same words counts. -/
def reserved (beginning : List Phrases) : Phrases :=
  inOrder (beginning ++ [terminal .unreadable])

/-! Names and types -/

/-- A name, also one of the words that are keywords only in a few places. -/
def anyName : Phrases := oneOf [name, phrase .softName]

def qualified : Phrases := oneOf [name, phrase .softName, phrase .qualifiedName]

def plainType : Phrases :=
  oneOf [word "void", phrase .integralType, phrase .floatingType, word "boolean", name,
    phrase .scopedType, phrase .genericType]

def annotations : Phrases := maybe .annotationUses

def modifiers : Phrases := maybe .modifiers

/-! Expressions -/

def operators : List (String × Int) :=
  [(">", 10), ("<", 10), (">=", 10), ("<=", 10), ("==", 9), ("!=", 9), ("&&", 5), ("||", 4),
   ("+", 12), ("-", 12), ("*", 13), ("/", 13), ("&", 8), ("|", 6), ("^", 7), ("%", 13), ("<<", 11),
   (">>", 11), (">>>", 11)]

def receiverOfAccess : Phrases := oneOf [phrase .primary, word "super"]

/-- The rest of an `instanceof` after its type; `when` is kept for guards there. -/
def testedType (before : List Phrases) : Phrases :=
  oneOf [
    inOrder (before ++ [phrase .anyType, optional anyName]),
    inOrder (before ++ [phrase .recordPattern]),
    reserved (before ++ [phrase .anyType, word "when"])]

/-! Statements -/

def expressionOrNothing : Phrases := maybe .expression

def expressions : Phrases := optional (listed (phrase .expression) .moreExpressions)

def elsePart : Phrases := optional (inOrder [word "else", phrase .statement])

/-! Declarations -/

def member : Phrases :=
  oneOf [phrase .field, phrase .recordDeclaration, phrase .method, phrase .compactConstructor,
    phrase .classDeclaration, phrase .interfaceDeclaration, phrase .annotationTypeDeclaration,
    phrase .enumDeclaration, phrase .block, phrase .staticBlock, phrase .constructor, symbol ";"]

def fieldOrVariables : Phrases :=
  inOrder [modifiers, phrase .type, phrase .declarators, symbol ";"]

def initializer : Phrases := oneOf [phrase .expression, phrase .arrayInitializer]

end Phrases

open Rule Phrases in
def rule : Part → Phrases
  | .program => maybe .topLevels
  | .topLevel => oneOf [phrase .statement, phrase .method]
  -- literals
  | .value => oneOf [terminal .literal, words ["true", "false"], phrase .quoted, word "null"]
  | .quoted => oneOf [phrase .lineString, phrase .blockString]
  | .lineString => between "\"" "\"" (maybe .lineParts)
  | .blockString => between "\"\"\"" "\"\"\"" (maybe .blockParts)
  | .interpolation => between "\\\x7b" "\x7d" (phrase .expression)
  -- expressions
  | .expression =>
    oneOf [phrase .assignment, phrase .binary, phrase .instanceOf, phrase .lambda, phrase .ternary,
      phrase .update, phrase .primary, phrase .unary, phrase .cast, phrase .switch]
  | .cast =>
    level 14 (oneOf [
      inOrder [symbol "(", phrase .anyType, symbol ")", phrase .expression],
      inOrder [symbol "(", phrase .anyType, maybe .moreBounds, symbol ")",
        oneOf [phrase .primary, phrase .lambda]]])
  | .assignment =>
    toRight 1 (inOrder [
      oneOf [name, phrase .softName, phrase .fieldAccess, phrase .arrayAccess],
      symbols ["=", "+=", "-=", "*=", "/=", "&=", "|=", "^=", "%=", "<<=", ">>=", ">>>="],
      phrase .expression])
  | .binary =>
    oneOf (operators.map fun (operator, n) =>
      toLeft n (inOrder [phrase .expression, symbol operator, phrase .expression]))
  | .instanceOf =>
    level 10 (oneOf [
      testedType [phrase .expression, word "instanceof"],
      testedType [phrase .expression, word "instanceof", word "final"]])
  | .lambda =>
    inOrder [
      oneOf [name, phrase .parameters, phrase .inferredParameters, phrase .softName],
      symbol "->", oneOf [phrase .expression, phrase .block]]
  | .inferredParameters => between "(" ")" (listed anyName .moreNames)
  | .ternary =>
    toRight 3 (inOrder [phrase .expression, symbol "?", phrase .expression, symbol ":",
      phrase .expression])
  | .unary =>
    oneOf (["+", "-", "!", "~"].map fun operator =>
      toLeft 15 (inOrder [symbol operator, phrase .expression]))
  | .update =>
    toLeft 15 (oneOf [
      inOrder [phrase .expression, symbols ["++", "--"]],
      inOrder [symbols ["++", "--"], phrase .expression]])
  | .primary =>
    oneOf [phrase .value, phrase .classLiteral, word "this", name, phrase .softName,
      phrase .parenthesized, phrase .creation, phrase .fieldAccess, phrase .arrayAccess,
      phrase .call, phrase .reference, phrase .arrayCreation, phrase .template]
  | .arrayCreation =>
    toRight 0 (inOrder [word "new", annotations, plainType,
      oneOf [
        inOrder [phrase .sizedDimensions, maybe .dimensions],
        inOrder [phrase .dimensions, phrase .arrayInitializer]]])
  | .sizedDimension => inOrder [annotations, between "[" "]" (phrase .expression)]
  | .parenthesized => between "(" ")" (phrase .expression)
  | .classLiteral => weighing 17 (inOrder [phrase .type, symbol ".", word "class"])
  | .creation =>
    oneOf [phrase .bareCreation, inOrder [phrase .primary, symbol ".", phrase .bareCreation]]
  | .bareCreation =>
    toRight 0 (inOrder [word "new",
      oneOf [inOrder [annotations, phrase .typeArguments, annotations], annotations],
      plainType, phrase .arguments, maybe .classBody])
  | .fieldAccess =>
    inOrder [receiverOfAccess, optional (inOrder [symbol ".", word "super"]), symbol ".",
      oneOf [name, phrase .softName, word "this"]]
  | .template => inOrder [phrase .primary, symbol ".", phrase .quoted]
  | .arrayAccess => inOrder [phrase .primary, between "[" "]" (phrase .expression)]
  | .call =>
    inOrder [
      oneOf [
        anyName,
        inOrder [receiverOfAccess, symbol ".", optional (inOrder [word "super", symbol "."]),
          maybe .typeArguments, anyName]],
      phrase .arguments]
  | .arguments => between "(" ")" expressions
  | .reference =>
    inOrder [oneOf [phrase .anyType, phrase .primary, word "super"], symbol "::",
      maybe .typeArguments, oneOf [word "new", name]]
  | .typeArguments =>
    between "<" ">" (optional (listed (oneOf [phrase .anyType, phrase .wildcard])
      .moreTypeArguments))
  | .wildcard => inOrder [annotations, symbol "?", maybe .wildcardBounds]
  | .wildcardBounds => inOrder [words ["extends", "super"], phrase .anyType]
  | .dimensions => toRight 0 (phrase .dimensionPairs)
  -- switches
  | .switch => inOrder [word "switch", phrase .parenthesized, phrase .switchBlock]
  | .switchBlock => between "\x7b" "\x7d" (oneOf [maybe .switchGroups, phrase .switchRules])
  | .switchGroup => toLeft 0 (inOrder [phrase .labels, maybe .statements])
  | .switchRule =>
    inOrder [phrase .switchLabel, symbol "->",
      oneOf [phrase .expressionStatement, phrase .throwing, phrase .block]]
  | .switchLabel =>
    oneOf [
      inOrder [word "case",
        oneOf [phrase .pattern, listed (phrase .expression) .moreExpressions], maybe .guard],
      word "default"]
  | .pattern => oneOf [phrase .typePattern, phrase .recordPattern]
  | .typePattern => inOrder [phrase .type, anyName]
  | .recordPattern =>
    inOrder [oneOf [name, phrase .softName, phrase .genericType], phrase .recordPatternBody]
  | .recordPatternBody =>
    between "(" ")" (optional (listed
      (oneOf [phrase .recordPatternComponent, phrase .recordPattern]) .morePatterns))
  | .recordPatternComponent => oneOf [word "_", inOrder [phrase .type, anyName]]
  | .guard => inOrder [word "when", phrase .expression]
  -- statements
  | .statement =>
    oneOf [phrase .declaration, phrase .expressionStatement, phrase .labeled, phrase .conditional,
      phrase .whileLoop, phrase .forLoop, phrase .forEach, phrase .block, symbol ";",
      phrase .assertion, phrase .doLoop, phrase .breaking, phrase .continuing, phrase .returning,
      phrase .yielding, phrase .switch, phrase .synchronizing, phrase .localVariables,
      phrase .throwing, phrase .trying, phrase .tryingWith]
  | .block => between "\x7b" "\x7d" (maybe .statements)
  | .expressionStatement => inOrder [phrase .expression, symbol ";"]
  | .labeled => inOrder [name, symbol ":", phrase .statement]
  | .assertion =>
    inOrder [word "assert", phrase .expression,
      optional (inOrder [symbol ":", phrase .expression]), symbol ";"]
  | .doLoop =>
    inOrder [word "do", phrase .statement, word "while", phrase .parenthesized, symbol ";"]
  | .breaking => inOrder [word "break", optional name, symbol ";"]
  | .continuing => inOrder [word "continue", optional name, symbol ";"]
  | .returning => inOrder [word "return", expressionOrNothing, symbol ";"]
  | .yielding => inOrder [word "yield", phrase .expression, symbol ";"]
  | .synchronizing => inOrder [word "synchronized", phrase .parenthesized, phrase .block]
  | .throwing => inOrder [word "throw", phrase .expression, symbol ";"]
  | .trying =>
    inOrder [word "try", phrase .block,
      oneOf [phrase .catches, inOrder [maybe .catches, phrase .finishing]]]
  | .catching => inOrder [word "catch", between "(" ")" (phrase .caught), phrase .block]
  | .caught => inOrder [modifiers, phrase .caughtTypes, phrase .declaredId]
  | .caughtTypes => listed (phrase .type) .moreCaughtTypes
  | .finishing => inOrder [word "finally", phrase .block]
  | .tryingWith =>
    inOrder [word "try", phrase .resources, phrase .block, maybe .catches, maybe .finishing]
  | .resources =>
    between "(" ")" (inOrder [listed (phrase .resource) .moreResources, optional (symbol ";")])
  | .resource =>
    oneOf [
      inOrder [modifiers, phrase .type, phrase .declaredId, symbol "=", phrase .expression],
      name,
      phrase .fieldAccess]
  | .conditional =>
    toRight 0 (inOrder [word "if", phrase .parenthesized, phrase .statement, elsePart])
  | .whileLoop => inOrder [word "while", phrase .parenthesized, phrase .statement]
  | .forLoop =>
    oneOf [
      inOrder [word "for", symbol "(",
        oneOf [phrase .localVariables, inOrder [expressions, symbol ";"]],
        expressionOrNothing, symbol ";", expressions, symbol ")", phrase .statement],
      reserved [word "for", symbol "(", name, word "when"]]
  | .forEach =>
    inOrder [word "for", symbol "(", modifiers, phrase .type, phrase .declaredId, symbol ":",
      phrase .expression, symbol ")", phrase .statement]
  -- annotations
  | .annotationUse => oneOf [phrase .bareMark, phrase .markWithArguments]
  | .bareMark => inOrder [symbol "@", qualified]
  | .markWithArguments => inOrder [symbol "@", qualified, phrase .annotationArguments]
  | .annotationArguments =>
    between "(" ")" (oneOf [phrase .elementValue,
      optional (listed (phrase .elementPair) .morePairs)])
  | .elementPair => inOrder [anyName, symbol "=", phrase .elementValue]
  | .elementValue =>
    level 2 (oneOf [phrase .expression, phrase .elementArray, phrase .annotationUse])
  | .elementArray =>
    between "\x7b" "\x7d" (inOrder [optional (listed (phrase .elementValue) .moreElements),
      optional (symbol ",")])
  -- declarations
  | .declaration =>
    level 2 (oneOf [phrase .moduleDeclaration, phrase .packageDeclaration,
      phrase .importDeclaration, phrase .classDeclaration, phrase .recordDeclaration,
      phrase .interfaceDeclaration, phrase .annotationTypeDeclaration, phrase .enumDeclaration])
  | .moduleDeclaration =>
    inOrder [annotations, optional (word "open"), word "module", qualified, phrase .moduleBody]
  | .moduleBody => between "\x7b" "\x7d" (maybe .directives)
  | .directive =>
    oneOf [phrase .requires, phrase .exports, phrase .opens, phrase .uses, phrase .provides]
  | .requires => inOrder [word "requires", maybe .requiresModifiers, qualified, symbol ";"]
  | .requiresModifier => words ["transitive", "static"]
  | .exports =>
    inOrder [word "exports", qualified,
      optional (inOrder [word "to", listed qualified .moreQualifiedNames]), symbol ";"]
  | .opens =>
    inOrder [word "opens", qualified,
      optional (inOrder [word "to", listed qualified .moreQualifiedNames]), symbol ";"]
  | .uses => inOrder [word "uses", qualified, symbol ";"]
  | .provides =>
    inOrder [word "provides", qualified, word "with", listed qualified .moreQualifiedNames,
      symbol ";"]
  | .packageDeclaration => inOrder [annotations, word "package", qualified, symbol ";"]
  | .importDeclaration =>
    inOrder [word "import", optional (word "static"), qualified,
      optional (inOrder [symbol ".", phrase .asterisk]), symbol ";"]
  | .asterisk => symbol "*"
  | .enumDeclaration =>
    inOrder [modifiers, word "enum", name, maybe .superInterfaces, phrase .enumBody]
  | .enumBody =>
    between "\x7b" "\x7d" (inOrder [optional (listed (phrase .enumConstant) .moreEnumConstants),
      optional (symbol ","), maybe .enumRest])
  | .enumRest => inOrder [symbol ";", maybe .members]
  | .enumConstant => inOrder [modifiers, name, maybe .arguments, maybe .classBody]
  | .classDeclaration =>
    inOrder [modifiers, word "class", name, maybe .typeParameters, maybe .superclass,
      maybe .superInterfaces, maybe .permits, phrase .classBody]
  | .modifiers => phrase .modifierList
  | .typeParameters => between "<" ">" (listed (phrase .typeParameter) .moreTypeParameters)
  | .typeParameter => inOrder [annotations, name, maybe .typeBound]
  | .typeBound => inOrder [word "extends", phrase .anyType, maybe .moreBounds]
  | .superclass => inOrder [word "extends", phrase .anyType]
  | .superInterfaces => inOrder [word "implements", phrase .typeList]
  | .typeList => listed (phrase .anyType) .moreTypes
  | .permits => inOrder [word "permits", phrase .typeList]
  | .classBody => between "\x7b" "\x7d" (maybe .members)
  | .staticBlock => inOrder [word "static", phrase .block]
  | .constructor =>
    inOrder [modifiers, phrase .constructorHead, maybe .throwsClause, phrase .constructorBody]
  | .constructorHead => inOrder [maybe .typeParameters, name, phrase .parameters]
  | .constructorBody =>
    between "\x7b" "\x7d" (inOrder [maybe .constructorCall, maybe .statements])
  | .constructorCall =>
    inOrder [
      oneOf [
        inOrder [maybe .typeArguments, words ["this", "super"]],
        inOrder [phrase .primary, symbol ".", maybe .typeArguments, word "super"]],
      phrase .arguments, symbol ";"]
  | .qualifiedName => inOrder [qualified, symbol ".", name]
  | .field => fieldOrVariables
  | .recordDeclaration =>
    inOrder [modifiers, word "record", name, maybe .typeParameters, phrase .parameters,
      maybe .superInterfaces, phrase .classBody]
  | .annotationTypeDeclaration =>
    inOrder [modifiers, symbol "@interface", name, phrase .annotationTypeBody]
  | .annotationTypeBody => between "\x7b" "\x7d" (maybe .elementMembers)
  | .elementDeclaration =>
    inOrder [modifiers, phrase .type, anyName, symbol "(", symbol ")", maybe .dimensions,
      maybe .elementDefault, symbol ";"]
  | .elementDefault => inOrder [word "default", phrase .elementValue]
  | .interfaceDeclaration =>
    inOrder [modifiers, word "interface", name, maybe .typeParameters, maybe .superTypes,
      maybe .permits, phrase .interfaceBody]
  | .superTypes => inOrder [word "extends", phrase .typeList]
  | .interfaceBody => between "\x7b" "\x7d" (maybe .interfaceMembers)
  | .constant => fieldOrVariables
  | .declarators => listed (phrase .declarator) .moreDeclarators
  | .declarator =>
    inOrder [phrase .declaredId, optional (inOrder [symbol "=", initializer])]
  | .declaredId => inOrder [oneOf [name, phrase .softName, word "_"], maybe .dimensions]
  | .arrayInitializer =>
    between "\x7b" "\x7d" (inOrder [optional (listed initializer .moreInitializers),
      optional (symbol ",")])
  -- types
  | .anyType => oneOf [phrase .type, phrase .annotatedType]
  | .type => oneOf [plainType, phrase .arrayType]
  | .annotatedType => inOrder [phrase .annotationUses, phrase .type]
  | .scopedType =>
    inOrder [oneOf [name, phrase .scopedType, phrase .genericType], symbol ".", annotations, name]
  | .genericType => weighing 10 (inOrder [oneOf [name, phrase .scopedType], phrase .typeArguments])
  | .arrayType => inOrder [phrase .type, phrase .dimensions]
  | .integralType => words ["byte", "short", "int", "long", "char"]
  | .floatingType => words ["float", "double"]
  -- methods
  | .methodHeader =>
    inOrder [optional (inOrder [phrase .typeParameters, annotations]), phrase .type,
      phrase .methodHead, maybe .throwsClause]
  | .methodHead => inOrder [anyName, phrase .parameters, maybe .dimensions]
  | .parameters =>
    between "(" ")" (oneOf [
      phrase .receiver,
      inOrder [optional (inOrder [phrase .receiver, symbol ","]),
        optional (listed (oneOf [phrase .parameter, phrase .spread]) .moreParameters)]])
  | .parameter => inOrder [modifiers, phrase .type, phrase .declaredId]
  | .receiver => inOrder [annotations, phrase .type, maybe .outerNames, word "this"]
  | .spread =>
    inOrder [modifiers, phrase .type, symbol "...", annotations, phrase .declarator]
  | .throwsClause => inOrder [word "throws", listed (phrase .anyType) .moreTypes]
  | .localVariables => fieldOrVariables
  | .method =>
    inOrder [modifiers, phrase .methodHeader, oneOf [phrase .block, symbol ";"]]
  | .compactConstructor => inOrder [modifiers, name, phrase .block]
  | .softName =>
    oneOf [level (-3) (words ["open", "module", "record", "with", "sealed"]), word "yield"]
  -- lists
  | .topLevels => listOf .topLevels (phrase .topLevel)
  | .lineParts => listOf .lineParts (oneOf [terminal .lineText, phrase .interpolation])
  | .blockParts => listOf .blockParts (oneOf [terminal .blockText, phrase .interpolation])
  | .moreBounds => listOf .moreBounds (joined "&" (phrase .anyType))
  | .moreNames => listOf .moreNames (joined "," anyName)
  | .annotationUses => listOf .annotationUses (phrase .annotationUse)
  | .sizedDimensions => listOf .sizedDimensions (phrase .sizedDimension)
  | .moreExpressions => listOf .moreExpressions (joined "," (phrase .expression))
  | .moreTypeArguments =>
    listOf .moreTypeArguments (joined "," (oneOf [phrase .anyType, phrase .wildcard]))
  | .dimensionPairs => listOf .dimensionPairs (inOrder [annotations, symbol "[", symbol "]"])
  | .switchGroups => listOf .switchGroups (phrase .switchGroup)
  | .switchRules => listOf .switchRules (phrase .switchRule)
  | .labels => listOf .labels (inOrder [phrase .switchLabel, symbol ":"])
  | .statements => listOf .statements (phrase .statement)
  | .morePatterns =>
    listOf .morePatterns
      (joined "," (oneOf [phrase .recordPatternComponent, phrase .recordPattern]))
  | .catches => listOf .catches (phrase .catching)
  | .moreCaughtTypes => listOf .moreCaughtTypes (joined "|" (phrase .type))
  | .moreResources => listOf .moreResources (joined ";" (phrase .resource))
  | .morePairs => listOf .morePairs (joined "," (phrase .elementPair))
  | .moreElements => listOf .moreElements (joined "," (phrase .elementValue))
  | .directives => listOf .directives (phrase .directive)
  | .requiresModifiers => listOf .requiresModifiers (phrase .requiresModifier)
  | .moreQualifiedNames => listOf .moreQualifiedNames (joined "," qualified)
  | .moreEnumConstants => listOf .moreEnumConstants (joined "," (phrase .enumConstant))
  | .members => listOf .members member
  | .modifierList =>
    listOf .modifierList (oneOf [phrase .annotationUse,
      words ["public", "protected", "private", "abstract", "static", "final", "strictfp", "default",
        "synchronized", "native", "transient", "volatile", "sealed"],
      symbol "non-sealed"])
  | .moreTypeParameters => listOf .moreTypeParameters (joined "," (phrase .typeParameter))
  | .moreTypes => listOf .moreTypes (joined "," (phrase .anyType))
  | .elementMembers =>
    listOf .elementMembers (oneOf [phrase .elementDeclaration, phrase .constant,
      phrase .classDeclaration, phrase .interfaceDeclaration, phrase .enumDeclaration,
      phrase .annotationTypeDeclaration, symbol ";"])
  | .interfaceMembers =>
    listOf .interfaceMembers (oneOf [phrase .constant, phrase .enumDeclaration, phrase .method,
      phrase .classDeclaration, phrase .interfaceDeclaration, phrase .recordDeclaration,
      phrase .annotationTypeDeclaration, symbol ";"])
  | .moreDeclarators => listOf .moreDeclarators (joined "," (phrase .declarator))
  | .moreInitializers => listOf .moreInitializers (joined "," initializer)
  | .moreParameters =>
    listOf .moreParameters (joined "," (oneOf [phrase .parameter, phrase .spread]))
  | .outerNames => listOf .outerNames (inOrder [name, symbol "."])

def language : Language Terminal Part where
  terminalNumber := Terminal.number
  names := Part.all
  number := Part.number
  rule := rule
  start := .program
  isList := Part.lists.contains

def tables : Tables :=
  language.tables Terminal.all.length

end CostWatch.Java
