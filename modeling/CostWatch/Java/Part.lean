/-!
Phrases of Java: the names of all that a text consists of.

The names have an order; of two ways to read the same text the earlier name counts, where nothing
else decides. Lists of phrases have names of their own, at the end.
-/

set_option autoImplicit false

namespace CostWatch.Java

inductive Part where
  | program | topLevel
  -- literals
  | value | quoted | lineString | blockString | interpolation
  -- expressions
  | expression | cast | assignment | binary | instanceOf | lambda | inferredParameters | ternary
  | unary | update | primary | arrayCreation | sizedDimension | parenthesized | classLiteral
  | creation | bareCreation | fieldAccess | template | arrayAccess | call | arguments | reference
  | typeArguments | wildcard | wildcardBounds | dimensions
  -- switches
  | switch | switchBlock | switchGroup | switchRule | switchLabel | pattern | typePattern
  | recordPattern | recordPatternBody | recordPatternComponent | guard
  -- statements
  | statement | block | expressionStatement | labeled | assertion | doLoop | breaking | continuing
  | returning | yielding | synchronizing | throwing | trying | catching | caught | caughtTypes
  | finishing | tryingWith | resources | resource | conditional | whileLoop | forLoop | forEach
  -- annotations
  | annotationUse | bareMark | markWithArguments | annotationArguments | elementPair | elementValue
  | elementArray
  -- declarations
  | declaration | moduleDeclaration | moduleBody | directive | requires | requiresModifier
  | exports | opens | uses | provides | packageDeclaration | importDeclaration | asterisk
  | enumDeclaration | enumBody | enumRest | enumConstant | classDeclaration | modifiers
  | typeParameters | typeParameter | typeBound | superclass | superInterfaces | typeList | permits
  | classBody | staticBlock | constructor | constructorHead | constructorBody | constructorCall
  | qualifiedName | field | recordDeclaration | annotationTypeDeclaration | annotationTypeBody
  | elementDeclaration | elementDefault | interfaceDeclaration | superTypes | interfaceBody
  | constant | declarators | declarator | declaredId | arrayInitializer
  -- types
  | anyType | type | annotatedType | scopedType | genericType | arrayType | integralType
  | floatingType
  -- methods
  | methodHeader | methodHead | parameters | parameter | receiver | spread | throwsClause
  | localVariables | method | compactConstructor | softName
  -- lists
  | topLevels | lineParts | blockParts | moreBounds | moreNames | annotationUses | sizedDimensions
  | moreExpressions | moreTypeArguments | dimensionPairs | switchGroups | switchRules | labels
  | statements | morePatterns | catches | moreCaughtTypes | moreResources | morePairs
  | moreElements | directives | requiresModifiers | moreQualifiedNames | moreEnumConstants
  | members | modifierList | moreTypeParameters | moreTypes | elementMembers | interfaceMembers
  | moreDeclarators | moreInitializers | moreParameters | outerNames
  deriving DecidableEq, Repr

namespace Part

def lists : List Part :=
  [topLevels, lineParts, blockParts, moreBounds, moreNames, annotationUses, sizedDimensions,
   moreExpressions, moreTypeArguments, dimensionPairs, switchGroups, switchRules, labels,
   statements, morePatterns, catches, moreCaughtTypes, moreResources, morePairs, moreElements, directives,
   requiresModifiers, moreQualifiedNames, moreEnumConstants, members, modifierList,
   moreTypeParameters, moreTypes, elementMembers, interfaceMembers, moreDeclarators,
   moreInitializers, moreParameters, outerNames]

def all : List Part :=
  [program, topLevel, value, quoted, lineString, blockString, interpolation, expression, cast,
   assignment, binary, instanceOf, lambda, inferredParameters, ternary, unary, update, primary,
   arrayCreation, sizedDimension, parenthesized, classLiteral, creation, bareCreation, fieldAccess,
   template, arrayAccess, call, arguments, reference, typeArguments, wildcard, wildcardBounds,
   dimensions, switch, switchBlock, switchGroup, switchRule, switchLabel, pattern, typePattern,
   recordPattern, recordPatternBody, recordPatternComponent, guard, statement, block,
   expressionStatement, labeled, assertion, doLoop, breaking, continuing, returning, yielding,
   synchronizing, throwing, trying, catching, caught, caughtTypes, finishing, tryingWith, resources,
   resource, conditional, whileLoop, forLoop, forEach, annotationUse, bareMark, markWithArguments,
   annotationArguments, elementPair, elementValue, elementArray, declaration, moduleDeclaration,
   moduleBody, directive, requires, requiresModifier, exports, opens, uses, provides,
   packageDeclaration, importDeclaration, asterisk, enumDeclaration, enumBody, enumRest,
   enumConstant, classDeclaration, modifiers, typeParameters, typeParameter, typeBound, superclass,
   superInterfaces, typeList, permits, classBody, staticBlock, constructor, constructorHead,
   constructorBody, constructorCall, qualifiedName, field, recordDeclaration,
   annotationTypeDeclaration, annotationTypeBody, elementDeclaration, elementDefault,
   interfaceDeclaration, superTypes, interfaceBody, constant, declarators, declarator, declaredId,
   arrayInitializer, anyType, type, annotatedType, scopedType, genericType, arrayType, integralType,
   floatingType, methodHeader, methodHead, parameters, parameter, receiver, spread, throwsClause,
   localVariables, method, compactConstructor, softName] ++ lists

def number (part : Part) : Nat :=
  part.ctorIdx

theorem all_eq : all.map number = List.range all.length := by
  decide +kernel

end Part

end CostWatch.Java
